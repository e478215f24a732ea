import BuildFlow.Proofs.Host
/-!
Actions that keep what holds of the state and end early only where they may, whatever the host is
like: calls may fail, jobs may come and go, and a kill may be requested at any time. No call on a
host ends with the failure of a job, with a count of tries that is out of range or with a timeout;
these come from the tree alone. Only one call puts a request for a build on record.
-/
namespace BuildFlow

namespace Act

variable {σ α β : Type} {holds : σ → Prop} {allows : Halt → Prop}

/-- If the answer is an early end, it is one that is allowed. -/
def Ends (allows : Halt → Prop) (answer : Except Halt α) : Prop :=
  ∀ halt, answer = .error halt → allows halt

theorem ends_ok (value : α) : Ends allows (.ok value) := nofun

theorem ends_error {halt : Halt} (allowed : allows halt) :
    Ends allows (.error halt : Except Halt α) := by
  intro other same
  cases same
  exact allowed

/-- A halt is allowed whatever was to be answered. -/
theorem Ends.halts {halt : Halt} (ends : Ends allows (.error halt : Except Halt α)) :
    Ends allows (.error halt : Except Halt β) :=
  ends_error (ends halt rfl)

theorem Ends.widen {allows' : Halt → Prop} {answer : Except Halt α} (ends : Ends allows answer)
    (wider : ∀ halt, allows halt → allows' halt) : Ends allows' answer :=
  fun halt same => wider halt (ends halt same)

/-- The action keeps what holds of the state, and ends early only where that is allowed. -/
def Safe (holds : σ → Prop) (allows : Halt → Prop) (action : Act σ α) : Prop :=
  ∀ state, holds state → action.Leads state fun answer next => holds next ∧ Ends allows answer

theorem Safe.widen {allows' : Halt → Prop} {action : Act σ α} (safe : Safe holds allows action)
    (wider : ∀ halt, allows halt → allows' halt) : Safe holds allows' action := by
  intro state start
  apply (safe state start).mono
  rintro answer next ⟨kept, ends⟩
  exact ⟨kept, ends.widen wider⟩

theorem safe_pure (value : α) : Safe holds allows (pure value) :=
  fun _ start => ⟨start, ends_ok value⟩

theorem safe_get : Safe holds allows (get : Act σ σ) :=
  fun state start => ⟨start, ends_ok state⟩

/-- What comes next may rely on what holds of the state that was read. -/
theorem safe_get_bind {next : σ → Act σ β}
    (second : ∀ state, holds state → Safe holds allows (next state)) :
    Safe holds allows (get >>= next) :=
  fun state start => second state start state start

theorem safe_throw {halt : Halt} (allowed : allows halt) :
    Safe holds allows (throw halt : Act σ α) :=
  fun _ start => ⟨start, ends_error allowed⟩

theorem safe_modify {f : σ → σ} (keeps : ∀ state, holds state → holds (f state)) :
    Safe holds allows (modify f : Act σ PUnit) :=
  fun state start => ⟨keeps state start, ends_ok _⟩

theorem Safe.bind {action : Act σ α} {next : α → Act σ β} (first : Safe holds allows action)
    (second : ∀ value, Safe holds allows (next value)) : Safe holds allows (action >>= next) := by
  intro state start
  rw [leads_bind]
  apply (first state start).mono
  rintro answer there ⟨kept, ends⟩
  cases answer with
  | ok value => exact second value there kept
  | error halt => exact ⟨kept, ends.halts⟩

theorem Safe.discard {action : Act σ α} (safe : Safe holds allows action) :
    Safe holds allows (discard action : Act σ PUnit) := by
  intro state start
  rw [leads_discard]
  apply (safe state start).mono
  rintro answer there ⟨kept, ends⟩
  cases answer with
  | ok => exact ⟨kept, ends_ok _⟩
  | error halt => exact ⟨kept, ends.halts⟩

theorem Safe.tryCatch {action : Act σ α} {handler : Halt → Act σ α}
    (first : Safe holds allows action)
    (second : ∀ halt, allows halt → Safe holds allows (handler halt)) :
    Safe holds allows (tryCatch action handler) := by
  intro state start
  rw [leads_tryCatch]
  apply (first state start).mono
  rintro answer there ⟨kept, ends⟩
  cases answer with
  | ok value => exact ⟨kept, ends_ok value⟩
  | error halt => exact second halt (ends halt rfl) there kept

theorem safe_forM {action : α → Act σ PUnit} {items : List α}
    (safe : ∀ item ∈ items, Safe holds allows (action item)) :
    Safe holds allows (items.forM action) := by
  induction items with
  | nil => exact safe_pure _
  | cons item rest ih =>
      apply (safe item List.mem_cons_self).bind
      exact fun _ => ih fun other member => safe other (List.mem_cons_of_mem _ member)

theorem safe_ite {asks : Prop} [Decidable asks] {first second : Act σ α}
    (yes : Safe holds allows first) (no : Safe holds allows second) :
    Safe holds allows (if asks then first else second) := by
  by_cases asked : asks
  · rw [if_pos asked]
    exact yes
  · rw [if_neg asked]
    exact no

end Act

/-! ## Calls -/

/-- The halt has nothing to do with the tree: it is no failed job, no count of tries, and no group
that has run for too long. -/
def Halt.Foreign : Halt → Prop
  | .broken .tries => False
  | .error (.failed _) => False
  | .error (.timeout _ _ _ _) => False
  | _ => True

/-- What holds of a record, and still does whatever is added to it but requests for builds. -/
structure Ledger where
  holds : List Event → Prop
  adds : ∀ {event trace}, event.isInvoke = false → holds trace → holds (event :: trace)

/-- Nothing in particular holds of the record. -/
def Ledger.any : Ledger := ⟨fun _ => True, fun _ _ => trivial⟩

variable {ledger : Ledger}

namespace Host

open Act

variable {α : Type}

/-- However the call goes on whatever host, it asks for no build, and it does not end for a reason
that lies in a tree. -/
abbrev Apart (ledger : Ledger) (call : Act Host α) : Prop :=
  Safe (fun host => ledger.holds host.trace) Halt.Foreign call

theorem apart_modify {f : Host → Host} (same : ∀ host, (f host).trace = host.trace) :
    Apart ledger (modify f) :=
  safe_modify fun host kept => same host ▸ kept

theorem apart_set {host : Host} (kept : ledger.holds host.trace) : Apart ledger (set host) :=
  fun _ _ => ⟨kept, ends_ok _⟩

theorem apart_record {event : Event} (mute : event.isInvoke = false) :
    Apart ledger (record event) :=
  safe_modify fun _ kept => ledger.adds mute kept

theorem apart_log (level : Level) (message : String) (fields : List (String × Json)) :
    Apart ledger (Host.log level message fields) := apart_record rfl

theorem apart_setRunner (runner : Runner) : Apart ledger (setRunner runner) :=
  apart_modify fun _ => rfl

theorem apart_requestKill (kind : KillKind) (reason : String) :
    Apart ledger (requestKill kind reason) := by
  apply safe_get_bind
  intro host kept
  apply safe_ite
  · exact Safe.bind (apart_set kept) fun _ => apart_log _ _ _
  · exact safe_pure _

theorem apart_breakUnless (fits : Bool) : Apart ledger (breakUnless fits .ticks) := by
  cases fits with
  | true => exact safe_pure _
  | false => exact safe_throw trivial

theorem apart_sleep (duration : Duration) : Apart ledger (sleep duration) := by
  apply safe_get_bind
  intro host kept
  refine Safe.bind (apart_set kept) fun _ => ?_
  apply safe_ite
  · exact Safe.bind (apart_modify fun _ => rfl) fun _ =>
      (apart_log _ _ _).bind fun _ => apart_requestKill _ _
  · exact safe_pure _

theorem apart_lookAtGraph : Apart ledger lookAtGraph := by
  apply safe_get_bind
  intro host kept
  apply safe_ite
  · exact Safe.bind (apart_set kept) fun _ => apart_record rfl
  · exact safe_pure _

theorem apart_writeGraph (content : String) : Apart ledger (writeGraph content) := by
  apply safe_get_bind
  intro host kept
  split
  · exact apart_set kept
  · exact safe_throw trivial
  · exact safe_throw trivial

theorem apart_perform (action : Action) : Apart ledger (perform action) := by
  cases action with
  | kill kind reason => exact apart_requestKill kind reason
  | terminate =>
      apply apart_modify
      intro host
      split <;> rfl
  | blockGraph =>
      apply apart_modify
      intro host
      split <;> rfl
  | _ => exact apart_modify fun _ => rfl

theorem apart_refuse (error : RunnerError) : Apart ledger (refuse error : Act Host α) :=
  safe_throw trivial

theorem apart_attempt {call : Act Host α} (apart : Apart ledger call) :
    Apart ledger (attempt call) := by
  apply (apart.bind fun _ => safe_pure _).tryCatch
  intro halt foreign
  split
  · exact safe_pure _
  · exact safe_throw foreign

theorem apart_meetFaults (call : Call) (job : Option String) :
    Apart ledger (meetFaults call job) := by
  apply safe_get.bind
  intro host
  split
  · exact apart_refuse _
  · exact safe_pure _
  · exact safe_pure _

theorem apart_poll : Apart ledger poll :=
  (apart_record rfl).bind fun _ => apart_lookAtGraph.bind fun _ => (apart_meetFaults _ _).discard

theorem apart_quickPoll : Apart ledger quickPoll := by
  apply apart_lookAtGraph.bind
  intro _
  apply safe_get.bind
  intro host
  apply (apart_breakUnless _).bind
  intro _
  apply safe_get.bind
  intro host
  apply (apart_setRunner _).bind
  intro _
  -- Hooks may ask for a kill, and the script may do anything.
  apply (safe_forM fun hook _ => apart_requestKill _ _).bind
  intro _
  apply safe_get.bind
  intro host
  apply (safe_forM fun action _ => apart_perform _).bind
  intro _
  apply safe_get.bind
  intro host
  apply (apart_record rfl).bind
  intro _
  apply safe_ite
  · exact apart_refuse _
  · exact (apart_meetFaults _ _).discard

theorem apart_queuePoll : Apart ledger queuePoll :=
  (apart_record rfl).bind fun _ => (apart_meetFaults _ _).discard

theorem apart_getJob (name : String) : Apart ledger (getJob name) := by
  apply safe_get.bind
  intro host
  split
  · exact (apart_record rfl).bind fun _ => apart_refuse _
  · apply safe_get.bind
    intro host
    apply (apart_setRunner _).bind
    intro _
    apply (apart_record rfl).bind
    intro _
    apply safe_ite
    · exact safe_pure _
    · exact apart_refuse _

theorem apart_resolve (name : String) : Apart ledger (resolve name) := by
  apply safe_get.bind
  intro host
  apply safe_ite
  · exact safe_pure _
  · exact (apart_getJob name).bind fun _ => apart_modify fun _ => rfl

theorem apart_job (name : String) : Apart ledger (job name) := by
  apply safe_get.bind
  intro host
  split
  · exact safe_pure _
  · exact apart_refuse _

theorem apart_jobPoll (name : String) : Apart ledger (jobPoll name) :=
  (apart_meetFaults _ _).discard

theorem apart_jobStatus (name : String) : Apart ledger (jobStatus name) :=
  (apart_meetFaults _ _).discard.bind fun _ => (apart_job _).bind fun _ =>
    safe_get.bind fun _ => (apart_breakUnless _).bind fun _ => safe_pure _

theorem apart_build (ref : BuildRef) : Apart ledger (build ref) := by
  apply (apart_job _).bind
  intro job
  split
  · exact safe_pure _
  · exact safe_throw trivial

theorem apart_status (ref : BuildRef) : Apart ledger (status ref) :=
  (apart_meetFaults _ _).discard.bind fun _ => (apart_build _).bind fun _ =>
    safe_get.bind fun _ => (apart_breakUnless _).bind fun _ => safe_pure _

theorem apart_stop (ref : BuildRef) (dequeue : Bool) : Apart ledger (stop ref dequeue) := by
  apply (apart_record rfl).bind
  intro _
  apply (apart_meetFaults _ _).bind
  intro ignored
  apply safe_ite
  · exact safe_pure _
  · exact (apart_build _).bind fun _ => safe_get.bind fun _ =>
      (apart_breakUnless _).bind fun _ => apart_setRunner _

theorem apart_stopAll (name : String) : Apart ledger (stopAll name) := by
  apply (apart_record rfl).bind
  intro _
  apply (apart_meetFaults _ _).bind
  intro ignored
  apply safe_ite
  · exact safe_pure _
  · exact (apart_job _).bind fun _ => safe_get.bind fun _ =>
      (apart_breakUnless _).bind fun _ => apart_setRunner _

theorem apart_markStopped (name : String) : Apart ledger (markStopped name) := by
  apply safe_get_bind
  intro host kept
  apply safe_ite
  · exact safe_pure _
  · exact Safe.bind (apart_set kept) fun _ => safe_pure _

theorem apart_enqueue (name : String) (request : InvokeRequest) :
    Apart ledger (enqueue name request) := by
  apply (apart_meetFaults _ _).discard.bind
  intro _
  apply (apart_job _).bind
  intro job
  apply safe_get.bind
  intro host
  apply (apart_breakUnless _).bind
  intro _
  apply safe_get.bind
  intro host
  split
  · exact apart_refuse _
  · apply (apart_setRunner _).bind
    intro _
    apply safe_get.bind
    intro host
    exact (safe_forM fun trap _ => apart_requestKill _ _).bind fun _ => safe_pure _

/-- A request for a build may be put on record if the record allows it. -/
theorem leads_invoke_apart {name : String} {request : InvokeRequest} {host : Host}
    (kept : ledger.holds (.invoke name request :: host.trace)) :
    (invoke name request).Leads host fun answer after =>
      ledger.holds after.trace ∧ Ends Halt.Foreign answer := by
  rw [invoke_eq, leads_bind, leads_record]
  exact apart_enqueue name request _ kept

end Host

theorem Host.safe_log {allows : Halt → Prop} (level : Level) (message : String)
    (fields : List (String × Json)) :
    Act.Safe (fun host => ledger.holds host.trace) allows (Host.log level message fields) :=
  Act.safe_modify fun _ kept => ledger.adds rfl kept

theorem Standing.safe_announce {allows : Halt → Prop} (standing : Standing) (kind shown : String) :
    Act.Safe (fun host => ledger.holds host.trace) allows (standing.announce kind shown) := by
  unfold announce
  cases standing.message with
  | none => exact Host.safe_log _ _ _
  | some message => exact (Host.safe_log _ _ _).bind fun _ => Host.safe_log _ _ _

/-! ## Actions on a node -/

namespace NodeAct

open Act

variable {ν α β : Type} {holds : ν → Prop} {allows : Halt → Prop}

/-- What holds of the node and of the record is kept, whatever becomes of the host. -/
abbrev SafeFor (ledger : Ledger) (holds : ν → Prop) (allows : Halt → Prop)
    (action : NodeAct ν α) : Prop :=
  Safe (fun state => holds state.1 ∧ ledger.holds state.2.trace) allows action

/-- Nothing in particular holds of the node. -/
def Any (_node : ν) : Prop := True

theorem safe_onHost {call : Act Host α}
    (safe : Safe (fun host => ledger.holds host.trace) allows call) :
    SafeFor ledger holds allows (onHost call : NodeAct ν α) := by
  rintro state ⟨start, kept⟩
  rw [leads_onHost]
  apply (safe state.2 kept).mono
  rintro answer host ⟨kept, ends⟩
  exact ⟨⟨start, kept⟩, ends⟩

theorem safe_log (level : Level) (message : String) (fields : List (String × Json)) :
    SafeFor ledger holds allows (log level message fields : NodeAct ν Unit) :=
  safe_onHost (Host.safe_log level message fields)

theorem safe_host : SafeFor ledger holds allows (host : NodeAct ν Host) :=
  fun state start => ⟨start, ends_ok state.2⟩

theorem safe_node_bind {next : ν → NodeAct ν β}
    (second : ∀ node, holds node → SafeFor ledger holds allows (next node)) :
    SafeFor ledger holds allows (node >>= next) :=
  fun state start => second state.1 start.1 state start

theorem safe_setNode {node : ν} (fits : holds node) :
    SafeFor ledger holds allows (setNode node : NodeAct ν Unit) :=
  safe_modify fun _ start => ⟨fits, start.2⟩

theorem safe_modifyNode {f : ν → ν} (keeps : ∀ node, holds node → holds (f node)) :
    SafeFor ledger holds allows (modifyNode f : NodeAct ν Unit) :=
  safe_modify fun state start => ⟨keeps state.1 start.1, start.2⟩

end NodeAct

end BuildFlow
