import BuildFlow.Flow
import BuildFlow.Proofs.Tree.Layout
/-!
What a run goes by beside the jobs: the clock, the place of the graph file, and the ticks
that have passed. Only a tick and waiting for the next one change it.
-/
namespace BuildFlow

/-! ## Actions that keep something -/

namespace Act

variable {σ γ α β : Type} {f : σ → γ}

/-- Something is the same after the action as before it, however the action ends. -/
def Keeps (f : σ → γ) (action : Act σ α) : Prop := ∀ state, f (action.run state).2 = f state

theorem keeps_pure (value : α) : Keeps f (pure value : Act σ α) := fun _ => rfl

theorem keeps_throw (halt : Halt) : Keeps f (throw halt : Act σ α) := fun _ => rfl

theorem keeps_get : Keeps f (get : Act σ σ) := fun _ => rfl

/-- What is set may depend on the state before. -/
theorem keeps_get_bind {next : σ → Act σ α}
    (second : ∀ state, f ((next state).run state).2 = f state) : Keeps f (get >>= next) :=
  fun state => second state

theorem Keeps.bind {action : Act σ α} {next : α → Act σ β} (first : Keeps f action)
    (second : ∀ value, Keeps f (next value)) : Keeps f (action >>= next) := by
  intro state
  have kept := first state
  rw [run_bind]
  cases ended : action.run state with
  | mk answer after =>
      rw [ended] at kept
      cases answer with
      | ok value => exact (second value after).trans kept
      | error halt => exact kept

theorem Keeps.discard {action : Act σ α} (kept : Keeps f action) :
    Keeps f (discard action : Act σ PUnit) := by
  intro state
  have kept := kept state
  rw [run_discard]
  cases ended : action.run state with
  | mk answer after =>
      rw [ended] at kept
      cases answer <;> exact kept

theorem Keeps.catching {action : Act σ α} {handler : Halt → Act σ α} (first : Keeps f action)
    (second : ∀ halt, Keeps f (handler halt)) : Keeps f (tryCatch action handler) := by
  intro state
  have kept := first state
  rw [run_tryCatch]
  cases ended : action.run state with
  | mk answer after =>
      rw [ended] at kept
      cases answer with
      | ok => exact kept
      | error halt => exact (second halt after).trans kept

theorem keeps_ite {p : Prop} [Decidable p] {action other : Act σ α} (left : Keeps f action)
    (right : Keeps f other) : Keeps f (if p then action else other) := by
  split
  · exact left
  · exact right

theorem keeps_forM {list : List β} {action : β → Act σ PUnit}
    (each : ∀ item, Keeps f (action item)) : Keeps f (list.forM action) := by
  induction list with
  | nil => exact keeps_pure _
  | cons item rest ih => exact (each item).bind fun _ => ih

end Act

/-! ## Hosts -/

/-- The tick that was put on record, with the reading of the clock. -/
def Event.tick? : Event → Option (Nat × Instant)
  | .tick count now => some (count, now)
  | _ => none

/-- What a run goes by beside the jobs. -/
structure Around where
  clock : Instant
  place : GraphPlace
  /-- The ticks that have passed, the newest first, each with its reading of the clock. -/
  ticks : List (Nat × Instant)

namespace Host

open Act

def around (host : Host) : Around := ⟨host.clock, host.graph.place, host.trace.filterMap Event.tick?⟩

/-- The action changes nothing of what a run goes by beside the jobs. -/
abbrev Still {α : Type} (action : Act Host α) : Prop := Keeps around action

theorem still_record {event : Event} (other : event.tick? = none) : Still (record event) :=
  fun host => by
    change around { host with trace := event :: host.trace } = around host
    unfold around
    rw [List.filterMap_cons_none other]

theorem still_log (level : Level) (message : String) (fields : List (String × Json)) :
    Still (Host.log level message fields) :=
  still_record rfl

theorem still_breakUnless (fits : Bool) (breakdown : Breakdown) :
    Still (breakUnless fits breakdown) := by
  cases fits with
  | true => exact keeps_pure _
  | false => exact keeps_throw _

theorem still_requestKill (kind : KillKind) (reason : String) : Still (requestKill kind reason) := by
  refine keeps_get_bind fun host => ?_
  split
  · exact still_log _ _ _ { host with kill := host.kill.request kind reason }
  · rfl

theorem still_lookAtGraph : Still lookAtGraph := by
  refine keeps_get_bind fun host => ?_
  split
  · exact still_record rfl { host with graph := { host.graph with reported := host.graph.content } }
  · rfl

theorem still_writeGraph (content : String) : Still (writeGraph content) := by
  refine keeps_get_bind fun host => ?_
  split <;> rfl

theorem still_refuse {α : Type} (error : RunnerError) : Still (refuse error : Act Host α) :=
  keeps_throw _

theorem still_attempt {α : Type} {call : Act Host α} (still : Still call) : Still (attempt call) := by
  refine (still.bind fun _ => keeps_pure _).catching fun halt => ?_
  split
  · exact keeps_pure _
  · exact keeps_throw _

theorem still_meetFaults (call : Call) (job : Option String) : Still (meetFaults call job) := by
  refine keeps_get.bind fun host => ?_
  split
  · exact still_refuse _
  · exact keeps_pure _
  · exact keeps_pure _

theorem still_setRunner (runner : Runner) : Still (setRunner runner) := fun _ => rfl

theorem still_poll : Still poll :=
  (still_record rfl).bind fun _ => still_lookAtGraph.bind fun _ => (still_meetFaults _ _).discard

theorem still_getJob (name : String) : Still (getJob name) := by
  refine keeps_get.bind fun host => ?_
  split
  · exact (still_record rfl).bind fun _ => still_refuse _
  · refine keeps_get.bind fun _ => (still_setRunner _).bind fun _ => (still_record rfl).bind fun _ => ?_
    exact keeps_ite (keeps_pure _) (still_refuse _)

theorem still_resolve (name : String) : Still (resolve name) :=
  keeps_get.bind fun _ => keeps_ite (keeps_pure _) ((still_getJob name).bind fun _ => fun _ => rfl)

theorem still_job (name : String) : Still (job name) := by
  refine keeps_get.bind fun host => ?_
  split
  · exact keeps_pure _
  · exact still_refuse _

theorem still_jobPoll (name : String) : Still (jobPoll name) := (still_meetFaults _ _).discard

theorem still_jobStatus (name : String) : Still (jobStatus name) :=
  (still_meetFaults _ _).discard.bind fun _ => (still_job name).bind fun _ => keeps_get.bind fun _ =>
    (still_breakUnless _ _).bind fun _ => keeps_pure _

theorem still_build (ref : BuildRef) : Still (build ref) := by
  refine (still_job ref.job).bind fun job => ?_
  split
  · exact keeps_pure _
  · exact keeps_throw _

theorem still_status (ref : BuildRef) : Still (status ref) :=
  (still_meetFaults _ _).discard.bind fun _ => (still_build ref).bind fun _ => keeps_get.bind fun _ =>
    (still_breakUnless _ _).bind fun _ => keeps_pure _

theorem still_invoke (name : String) (request : InvokeRequest) : Still (invoke name request) := by
  refine (still_record rfl).bind fun _ => (still_meetFaults _ _).discard.bind fun _ =>
    (still_job name).bind fun job => keeps_get.bind fun _ => (still_breakUnless _ _).bind fun _ =>
      keeps_get.bind fun host => ?_
  split
  · exact still_refuse _
  · refine (still_setRunner _).bind fun _ => keeps_get.bind fun _ => ?_
    exact (keeps_forM fun trap => still_requestKill _ _).bind fun _ => keeps_pure _

end Host

theorem Standing.still_announce (standing : Standing) (kind shown : String) :
    Host.Still (standing.announce kind shown) := by
  unfold announce
  split
  · exact (Host.still_log _ _ _).bind fun _ => Host.still_log _ _ _
  · exact Host.still_log _ _ _

/-! ## Nodes -/

namespace NodeAct

open Act

variable {ν μ α : Type}

/-- The action on a node changes nothing of what a run goes by beside the jobs. -/
abbrev Still (action : NodeAct ν α) : Prop := Keeps (fun state => state.2.around) action

/-- The visit changes nothing of what a run goes by beside the jobs. -/
def StillVisit (visit : Visit μ) : Prop := ∀ part host, (visit part host).2.2.around = host.around

theorem still_node : Still (node : NodeAct ν ν) := fun _ => rfl

theorem still_host : Still (host : NodeAct ν Host) := fun _ => rfl

theorem still_setNode (node : ν) : Still (setNode node) := fun _ => rfl

theorem still_modifyNode (f : ν → ν) : Still (modifyNode f) := fun _ => rfl

theorem still_onHost {action : Act Host α} (still : Host.Still action) :
    Still (onHost action : NodeAct ν α) :=
  fun state => still state.2

theorem still_log (level : Level) (message : String) (fields : List (String × Json)) :
    Still (log level message fields : NodeAct ν Unit) :=
  still_onHost (Host.still_log level message fields)

theorem still_onPart {visit : Visit μ} (still : StillVisit visit) (part : μ) (put : μ → ν) :
    Still (onPart visit part put) :=
  fun state => still part state.2

theorem still_failure? {action : NodeAct ν Unit} (still : Still action) : Still (failure? action) := by
  refine (still.bind fun _ => keeps_pure _).catching fun halt => ?_
  split
  · exact keeps_pure _
  · exact keeps_throw _

end NodeAct

/-! ## Invocations -/

namespace Task

open NodeAct Act

theorem still_setStanding (f : Standing → Standing) : Still (setStanding f) := still_modifyNode _

theorem still_attach : Still attach :=
  still_node.bind fun _ => (still_onHost (Host.still_jobPoll _)).bind fun _ =>
    (still_onHost (Host.still_jobStatus _)).bind fun _ => (still_setNode _).bind fun _ => keeps_pure _

theorem still_failMissing {α : Type} : Still (failMissing : Step α) :=
  still_node.bind fun _ => (still_setStanding _).bind fun _ => keeps_throw _

theorem still_require : Still require := by
  refine still_node.bind fun task => keeps_ite (keeps_pure _) ?_
  refine (still_onHost (Host.still_attempt (Host.still_resolve _))).bind fun found => ?_
  split
  · exact still_attach.discard
  · exact still_failMissing
  · exact keeps_throw _

theorem still_prepareFirst (sweep : Sweep) : Still (prepareFirst sweep) := by
  have prepares : ∀ task : Task,
      Still (onHost (Host.breakUnless (task.standing.canPrepare false) .tries) : Step Unit) :=
    fun _ => still_onHost (Host.still_breakUnless _ _)
  refine still_node.bind fun task => ?_
  refine (still_onHost (Host.still_attempt (Host.still_resolve _))).bind fun found => ?_
  split
  · refine keeps_ite ?_ still_failMissing
    exact (still_log _ _ _).bind fun _ => (prepares task).bind fun _ => still_setStanding _
  · exact keeps_throw _
  · refine (prepares task).bind fun _ => (still_setStanding _).bind fun _ => ?_
    refine still_attach.bind fun _ => ?_
    exact keeps_ite (keeps_throw _) (still_log _ _ _)

theorem still_checkpoint : Still checkpoint := by
  refine still_host.bind fun host => ?_
  split
  · exact keeps_throw _
  · exact keeps_pure _

theorem still_startBuild (sweep : Sweep) : Still (startBuild sweep) := by
  refine still_node.bind fun task => (still_onHost (Standing.still_announce _ _ _)).bind fun _ =>
    (still_onHost (Host.still_invoke _ _)).bind fun ref => still_host.bind fun host => ?_
  split
  · exact (still_log _ _ _).bind fun _ => still_setNode _
  · exact (keeps_pure ()).bind fun _ => still_setNode _

theorem still_invoke (sweep : Sweep) : Still (invoke sweep) := by
  refine still_node.bind fun task => keeps_ite ?_ (still_startBuild sweep)
  refine (still_onHost (Host.still_jobStatus _)).bind fun status => ?_
  exact keeps_ite (still_startBuild sweep) (still_log _ _ _)

theorem still_observe : Still observe := by
  refine still_node.bind fun task => ?_
  split
  · exact still_onHost (Host.still_status _)
  · exact (still_onHost (Host.still_jobStatus _)).bind fun _ => keeps_pure _

theorem still_conclude (sweep : Sweep) (result : BuildResult) : Still (conclude sweep result) := by
  refine (still_setStanding _).bind fun _ => still_node.bind fun task => (still_log _ _ _).bind fun _ =>
    still_host.bind fun _ => (still_log _ _ _).bind fun _ => ?_
  exact keeps_ite (keeps_throw _) (keeps_pure _)

theorem still_check (sweep : Sweep) (report : Bool) : Still (check sweep report) := by
  have tracks : Still (do
      let task ← node
      onHost (Host.jobPoll task.name)
      let seen ← observe
      if !seen.2.isIdle || seen.1 = .unknown then
        if report then
          log .info (task.statusLine seen.2 task.oldBuild)
            (task.jobField ++ [("progress", .text seen.2.name)])
        else pure ()
      else conclude sweep seen.1 : Step Unit) := by
    refine still_node.bind fun task => (still_onHost (Host.still_jobPoll _)).bind fun _ =>
      still_observe.bind fun _ => ?_
    exact keeps_ite (keeps_ite (still_log _ _ _) (keeps_pure _)) (still_conclude sweep _)
  refine still_require.bind fun _ => still_node.bind fun task => keeps_ite tracks ?_
  exact still_checkpoint.bind fun _ => (still_setStanding _).bind fun _ =>
    (still_invoke sweep).bind fun _ => tracks

theorem still_define (task : Task) (order : List String) : Host.Still (task.define order) := by
  unfold define
  dsimp only
  split
  · exact (Host.still_log _ _ _).bind fun _ => keeps_forM fun _ => Host.still_log _ _ _
  · exact (Host.still_log _ _ _).bind fun _ => keeps_forM fun _ => Host.still_log _ _ _

theorem still_finalProgress (task : Task) : Host.Still task.finalProgress := by
  refine (Host.still_attempt (Host.still_jobStatus _)).bind fun status => ?_
  split
  · exact keeps_pure _
  · exact (Host.still_log _ _ _).bind fun _ => keeps_pure _

theorem still_finalStatus (task : Task) : Host.Still task.finalStatus :=
  keeps_ite (Host.still_log _ _ _) (keeps_ite (Host.still_log _ _ _)
    ((still_finalProgress task).bind fun _ => keeps_get.bind fun _ => Host.still_log _ _ _))

end Task

/-! ## Groups -/

namespace Branch

open NodeAct Act

theorem still_setGroup (f : Group → Group) : Still (setGroup f) := still_modifyNode _

theorem still_setStanding (f : Standing → Standing) : Still (setStanding f) := still_setGroup _

theorem still_setChild (index : Nat) (child : Tree) : Still (setChild index child) :=
  still_modifyNode _

theorem still_setFailed (f : Table Nat String → Table Nat String) : Still (setFailed f) :=
  still_setGroup _

theorem still_visitChild {visit : Visit Tree} (still : StillVisit visit) (index : Nat) (child : Tree) :
    Still (visitChild visit index child) :=
  still_node.bind fun _ => still_failure? (still_onPart still _ _)

variable (sweep : Sweep)

theorem still_beginSweep : Still (beginSweep sweep) := by
  have reports : ∀ branch : Branch, Still
      (if branch.group.reportInterval ≤ sweep.now.secondsSince branch.group.lastReport then do
        setGroup fun group => { group with lastReport := sweep.now }
        return true
      else return false : Step Bool) :=
    fun _ => keeps_ite ((still_setGroup _).bind fun _ => keeps_pure _) (keeps_pure _)
  refine still_node.bind fun branch => keeps_ite (reports branch) ?_
  exact (still_setStanding _).bind fun _ => (still_onHost (Standing.still_announce _ _ _)).bind fun _ =>
    reports branch

theorem still_reportResult : Still (reportResult sweep) := still_node.bind fun _ => still_log _ _ _

theorem still_checkTimeout : Still (checkTimeout sweep) :=
  still_node.bind fun _ => keeps_ite (keeps_throw _) (keeps_pure _)

theorem still_prepareChild (index : Nat) (child : Tree) (newScope : Bool) :
    Still (prepareChild index child newScope) :=
  (still_onHost (Host.still_breakUnless _ _)).bind fun _ => still_setChild _ _

theorem still_answerInPlace (index : Nat) (child : Tree) (failure : JobFailure) :
    Still (answerInPlace index child failure) := by
  refine (still_setFailed _).bind fun _ => keeps_ite ?aborted (keeps_ite ?again
    (keeps_ite ?outer ?spent))
  case aborted =>
    refine (still_log _ _ _).bind fun _ => (still_setChild _ _).bind fun _ => ?_
    exact keeps_ite ((keeps_pure ()).bind fun _ => keeps_pure _)
      ((still_setGroup _).bind fun _ => keeps_pure _)
  case again =>
    exact (still_log _ _ _).bind fun _ => (still_prepareChild _ _ _).bind fun _ => keeps_pure _
  case outer =>
    exact (still_log _ _ _).bind fun _ => (still_prepareChild _ _ _).bind fun _ => keeps_pure _
  case spent => exact (still_setChild _ _).bind fun _ => keeps_pure _

theorem still_restart (newScope : Bool) : Still (restart newScope) :=
  still_node.bind fun _ => (still_onHost (Host.still_breakUnless _ _)).bind fun _ => still_setNode _

theorem still_leave : Still leave := still_modifyNode _

theorem still_markAborted : Still markAborted := still_setGroup _

theorem still_answerFailure (index : Nat) (child : Tree) (failure : JobFailure) :
    Still (answerFailure index child failure) := by
  refine keeps_ite ?aborted (keeps_ite ?again (keeps_ite ?outer ?spent))
  case aborted =>
    refine (still_log _ _ _).bind fun _ => (still_setChild _ _).bind fun _ => ?_
    exact keeps_ite ((keeps_pure ()).bind fun _ => keeps_pure _)
      (still_markAborted.bind fun _ => still_leave.bind fun _ => keeps_pure _)
  case again =>
    exact keeps_ite ((still_log _ _ _).bind fun _ => keeps_pure _)
      ((still_log _ _ _).bind fun _ => (still_restart _).bind fun _ => keeps_pure _)
  case outer =>
    exact keeps_ite ((still_log _ _ _).bind fun _ => keeps_pure _)
      ((still_log _ _ _).bind fun _ => (still_restart _).bind fun _ => keeps_pure _)
  case spent =>
    refine (still_setChild _ _).bind fun _ => ?_
    exact keeps_ite ((keeps_pure ()).bind fun _ => keeps_pure _)
      (still_leave.bind fun _ => keeps_pure _)

theorem still_passWith {clear : Tree → Step Unit} {answer : Nat → Tree → JobFailure → Step Bool}
    {visit : Visit Tree} (clears : ∀ child, Still (clear child))
    (answers : ∀ index child failure, Still (answer index child failure)) (still : StillVisit visit)
    (indices : List Nat) (status : Checking) : Still (passWith clear answer visit indices status) := by
  induction indices generalizing status with
  | nil => exact keeps_pure _
  | cons index rest ih =>
      refine still_node.bind fun branch => ?_
      split
      · exact ih status
      · refine keeps_ite (ih status) ((still_visitChild still _ _).bind fun failure =>
          still_node.bind fun after => ?_)
        dsimp only
        split
        · exact (clears _).bind fun _ => ih _
        · exact (answers _ _ _).bind fun again => keeps_ite (ih _) (ih _)

theorem still_settle : Still (settle sweep) :=
  still_node.bind fun _ => (still_setStanding _).bind fun _ => (still_reportResult sweep).bind fun _ =>
    keeps_ite (keeps_throw _) (keeps_pure _)

theorem still_advance : Still (advance sweep) := by
  refine still_node.bind fun branch => (still_setStanding _).bind fun _ => keeps_ite ?failure ?fine
  case failure => exact (still_reportResult sweep).bind fun _ => keeps_throw _
  case fine =>
    exact (still_setGroup _).bind fun _ => keeps_ite (still_setStanding _) (still_reportResult sweep)

theorem still_checkParallel {visit : Bool → Visit Tree} (still : ∀ report, StillVisit (visit report)) :
    Still (checkParallel sweep visit) := by
  refine (still_beginSweep sweep).bind fun report => still_node.bind fun branch => ?_
  rw [parallelPass_eq]
  refine (still_passWith (fun _ => still_setFailed _) still_answerInPlace (still report) _ _).bind
    fun status => (still_setGroup _).bind fun _ => still_node.bind fun _ => ?_
  exact keeps_ite (still_checkTimeout sweep) (still_settle sweep)

theorem still_checkSerial {visit : Bool → Visit Tree} (still : ∀ report, StillVisit (visit report)) :
    Still (checkSerial sweep visit) := by
  refine (still_beginSweep sweep).bind fun report => still_node.bind fun branch => ?_
  rw [serialPass_eq]
  refine (still_passWith (fun _ => keeps_pure ()) still_answerFailure (still report) _ _).bind
    fun status => (still_setStanding _).bind fun _ => still_node.bind fun _ => ?_
  exact keeps_ite (still_checkTimeout sweep) (still_advance sweep)

end Branch

/-! ## Trees -/

namespace Tree

open NodeAct Act

theorem still_checkWithin (sweep : Sweep) (levels : Nat) (report : Bool) :
    StillVisit (checkWithin sweep levels report) := by
  induction levels generalizing report with
  | zero =>
      intro tree host
      cases tree with
      | task leaf => exact Task.still_check sweep report (leaf, host)
      | branch group children => rfl
  | succ levels ih =>
      intro tree host
      cases tree with
      | task leaf => exact Task.still_check sweep report (leaf, host)
      | branch group children =>
          have still : Still
              (if group.isSerial then Branch.checkSerial sweep (checkWithin sweep levels)
                else Branch.checkParallel sweep (checkWithin sweep levels)) :=
            keeps_ite (Branch.still_checkSerial sweep ih) (Branch.still_checkParallel sweep ih)
          exact still ((group, children), host)

theorem still_check (sweep : Sweep) (report : Bool) : StillVisit (check sweep report) :=
  fun tree host => still_checkWithin sweep tree.height report tree host

theorem still_prepareChildren {sweep : Sweep} {children : List Tree}
    (each : ∀ child ∈ children, ∀ host, (prepareFirst sweep child host).2.2.around = host.around) :
    ∀ host, (prepareChildren sweep children host).2.2.around = host.around := by
  induction children with
  | nil => exact fun host => rfl
  | cons child rest ih =>
      intro host
      have here := each child List.mem_cons_self host
      rw [prepareChildren]
      generalize prepareFirst sweep child host = ran at here
      obtain ⟨answer, child', there⟩ := ran
      cases answer with
      | error => exact here
      | ok =>
          have onward := ih (fun other member => each other (List.mem_cons_of_mem _ member)) there
          exact onward.trans here

theorem still_openGroup (group : Group) : Host.Still (openGroup group) :=
  (Host.still_breakUnless _ _).bind fun _ => (Host.still_log _ _ _).bind fun _ => keeps_pure _

theorem still_prepareFirst (sweep : Sweep) : StillVisit (prepareFirst sweep) := by
  intro tree
  induction tree using childrenInduction with
  | leaf leaf => exact fun host => Task.still_prepareFirst sweep (leaf, host)
  | branch group children ih =>
      intro host
      have opened := still_openGroup group host
      rw [prepareFirst]
      generalize (openGroup group).run host = ran at opened
      obtain ⟨answer, there⟩ := ran
      cases answer with
      | error => exact opened
      | ok group' =>
          have below := still_prepareChildren ih there
          dsimp only
          generalize prepareChildren sweep children there = ran at below
          obtain ⟨answer, children', after⟩ := ran
          cases answer with
          | error => exact below.trans opened
          | ok => exact (Host.still_log _ _ _ after).trans (below.trans opened)

/-! ## Reports -/

theorem still_define (tree : Tree) (order : List String) : Host.Still (tree.define order) :=
  keeps_forM fun leaf => leaf.still_define order

theorem still_finalStatus (tree : Tree) : Host.Still tree.finalStatus := by
  induction tree using childrenInduction with
  | leaf leaf => exact leaf.still_finalStatus
  | branch group children ih =>
      have below : Host.Still (finalStatuses children) := by
        induction children with
        | nil => exact keeps_pure _
        | cons child rest ihRest =>
            exact (ih child List.mem_cons_self).bind fun _ =>
              ihRest fun other member => ih other (List.mem_cons_of_mem _ member)
      exact (Host.still_log _ _ _).bind fun _ => below.bind fun _ => Host.still_log _ _ _

end Tree

end BuildFlow
