import BuildFlow.Proofs.Host
/-!
Requests for a kill on record. A request that raises the switch is put on record
at once, and so is every invocation of a job. What an action adds to the record
heeds the switch if no job is invoked while the switch holds a request. Nothing
is assumed of the host: calls may fail, and the script may act at any time.
-/
namespace BuildFlow

/-- Whether a request for a kill is put on record. -/
def Event.isKill : Event → Bool
  | .log .warn message _ => message = "Kill requested"
  | _ => false

/-- No job is invoked after a request for a kill. Events are given newest first. -/
def Event.Heeding (events : List Event) : Prop :=
  events.Pairwise fun later earlier => ¬ (earlier.isKill ∧ later.isInvoke)

/-- The answer is that a sweep was interrupted by a kill. -/
def IsKilled {α : Type} (answer : Except Halt α) : Prop :=
  ∃ reason, answer = .error (.error (.killed reason))

namespace Host

open Act

variable {before middle after : Host}

/-- What is new on record tells whether the switch holds a request now, and no
job was invoked while it held one. -/
structure Adds (before after : Host) (events : List Event) : Prop where
  trace : after.trace = events ++ before.trace
  requested : after.kill.isRequested ↔
    before.kill.isRequested ∨ ∃ event ∈ events, event.isKill
  heeding : Event.Heeding events
  held : before.kill.isRequested → ∀ event ∈ events, event.isInvoke = false

/-- What happened in between heeds requests for a kill. -/
def Heeds (before after : Host) : Prop := ∃ events, Adds before after events

theorem Adds.append {earlier later : List Event} (first : Adds before middle earlier)
    (second : Adds middle after later) : Adds before after (later ++ earlier) where
  trace := by rw [second.trace, first.trace, List.append_assoc]
  requested := by
    rw [second.requested, first.requested]
    simp only [List.mem_append, or_and_right, exists_or]
    rw [or_assoc, or_comm (a := ∃ event ∈ earlier, _)]
  heeding := by
    refine List.pairwise_append.mpr ⟨second.heeding, first.heeding, ?_⟩
    rintro invoked late killed early ⟨kill, invoke⟩
    have requested := first.requested.mpr (.inr ⟨killed, early, kill⟩)
    cases invoke.symm.trans (second.held requested invoked late)
  held := by
    intro requested event member
    rcases List.mem_append.mp member with late | early
    · exact second.held (first.requested.mpr (.inl requested)) event late
    · exact first.held requested event early

theorem adds_nothing (trace : after.trace = before.trace)
    (kind : after.kill.kind = before.kill.kind) : Adds before after [] where
  trace := trace
  requested := by simp [KillSwitch.isRequested, kind]
  heeding := .nil
  held := by simp

theorem heeds_of_same (trace : after.trace = before.trace)
    (kind : after.kill.kind = before.kill.kind) : Heeds before after :=
  ⟨[], adds_nothing trace kind⟩

theorem Heeds.refl (host : Host) : Heeds host host := heeds_of_same rfl rfl

theorem Heeds.trans (first : Heeds before middle) (second : Heeds middle after) :
    Heeds before after := by
  obtain ⟨earlier, first⟩ := first
  obtain ⟨later, second⟩ := second
  exact ⟨later ++ earlier, first.append second⟩

/-- An event that is neither a request nor an invocation. -/
theorem heeds_after (host : Host) {event : Event} (kill : event.isKill = false)
    (invoke : event.isInvoke = false) : Heeds host (host.after event) := by
  refine ⟨[event], rfl, ?_, List.pairwise_singleton _ _, ?_⟩
  · simp [kill, after]
  · simp [invoke]

/-- A job may be invoked as long as no kill is requested. -/
theorem heeds_invoke {host : Host} (unasked : host.kill.isRequested = false) (name : String)
    (request : InvokeRequest) : Heeds host (host.after (.invoke name request)) := by
  refine ⟨[.invoke name request], rfl, ?_, List.pairwise_singleton _ _, ?_⟩
  · simp [Event.isKill, after]
  · intro asked
    cases unasked.symm.trans asked

/-- An action that led from one host to another heeds requests for a kill. Only
where a window is open, which the action leaves open, may it end by a kill. -/
structure Minds {α : Type} (window : Bool) (before : Host) (answer : Except Halt α)
    (after : Host) : Prop where
  heeds : Heeds before after
  isOpen : window → after.kill.interruptible
  killed : IsKilled answer → window

variable {window : Bool} {α β : Type} {host : Host}

theorem Minds.ok {value : α} (heeds : Heeds before after)
    (isOpen : window → after.kill.interruptible) : Minds window before (.ok value) after :=
  ⟨heeds, isOpen, by rintro ⟨reason, ⟨⟩⟩⟩

theorem Minds.error {halt : Halt} (heeds : Heeds before after)
    (isOpen : window → after.kill.interruptible)
    (unkilled : ∀ reason, halt ≠ .error (.killed reason)) :
    Minds window before (.error halt : Except Halt α) after :=
  ⟨heeds, isOpen, by rintro ⟨reason, ⟨⟩⟩; exact absurd rfl (unkilled reason)⟩

/-- An early end is the same for whatever was to come. -/
theorem Minds.halted {halt : Halt} (minds : Minds window before (.error halt : Except Halt α) after) :
    Minds window before (.error halt : Except Halt β) after :=
  ⟨minds.heeds, minds.isOpen, by rintro ⟨reason, ⟨⟩⟩; exact minds.killed ⟨reason, rfl⟩⟩

theorem Heeds.minds {answer : Except Halt α} (heeds : Heeds before middle)
    (minds : Minds window middle answer after) : Minds window before answer after :=
  ⟨heeds.trans minds.heeds, minds.isOpen, minds.killed⟩

end Host

/-! ## Actions that heed the switch -/

section Heedful

open Act

variable {σ α β : Type} {window : Bool} {view : σ → Host}

/-- However it ends, the action heeds requests for a kill. -/
def Heedful (window : Bool) (view : σ → Host) (action : Act σ α) : Prop :=
  ∀ state, (window → (view state).kill.interruptible) →
    action.Leads state fun answer next => Host.Minds window (view state) answer (view next)

/-- An action goes on with what heeded the switch so far. -/
theorem Heedful.onward {action : Act σ α} (heedful : Heedful window view action) {before : Host}
    {state : σ} (heeds : before.Heeds (view state))
    (isOpen : window → (view state).kill.interruptible) :
    action.Leads state fun answer next => Host.Minds window before answer (view next) :=
  (heedful state isOpen).mono fun _ _ minds => heeds.minds minds

theorem heedful_pure (value : α) : Heedful window view (pure value) :=
  fun _ isOpen => .ok (.refl _) isOpen

theorem heedful_get : Heedful window view (get : Act σ σ) :=
  fun _ isOpen => .ok (.refl _) isOpen

theorem heedful_throw {halt : Halt} (unkilled : ∀ reason, halt ≠ .error (.killed reason)) :
    Heedful window view (throw halt : Act σ α) :=
  fun _ isOpen => .error (.refl _) isOpen unkilled

theorem heedful_modify {f : σ → σ} (trace : ∀ state, (view (f state)).trace = (view state).trace)
    (kill : ∀ state, (view (f state)).kill = (view state).kill) :
    Heedful window view (modify f : Act σ PUnit) :=
  fun state isOpen => .ok (Host.heeds_of_same (trace state) (congrArg KillSwitch.kind (kill state)))
    fun inside => (congrArg KillSwitch.interruptible (kill state)).trans (isOpen inside)

theorem Heedful.bind {action : Act σ α} {next : α → Act σ β} (first : Heedful window view action)
    (second : ∀ value, Heedful window view (next value)) :
    Heedful window view (action >>= next) := by
  intro state isOpen
  rw [leads_bind]
  refine (first state isOpen).mono fun answer there minds => ?_
  cases answer with
  | error halt => exact minds.halted
  | ok value => exact (second value).onward minds.heeds minds.isOpen

theorem Heedful.discard {action : Act σ α} (heedful : Heedful window view action) :
    Heedful window view (discard action : Act σ PUnit) := by
  intro state isOpen
  rw [leads_discard]
  refine (heedful state isOpen).mono fun answer there minds => ?_
  cases answer with
  | error halt => exact minds.halted
  | ok value => exact .ok minds.heeds minds.isOpen

theorem Heedful.tryCatch {action : Act σ α} {handler : Halt → Act σ α}
    (first : Heedful window view action)
    (second : ∀ halt, (∀ reason, halt = .error (.killed reason) → window) →
      Heedful window view (handler halt)) :
    Heedful window view (tryCatch action handler) := by
  intro state isOpen
  rw [leads_tryCatch]
  refine (first state isOpen).mono fun answer there minds => ?_
  cases answer with
  | ok value => exact minds
  | error halt =>
      exact (second halt fun reason same => minds.killed ⟨reason, congrArg _ same⟩).onward
        minds.heeds minds.isOpen

theorem heedful_forM {action : α → Act σ PUnit} {items : List α}
    (heedful : ∀ item ∈ items, Heedful window view (action item)) :
    Heedful window view (items.forM action) := by
  induction items with
  | nil => exact heedful_pure _
  | cons item rest ih =>
      exact (heedful item List.mem_cons_self).bind fun _ =>
        ih fun other member => heedful other (List.mem_cons_of_mem _ member)

theorem heedful_ite {asks : Prop} [Decidable asks] {first second : Act σ α}
    (yes : Heedful window view first) (no : Heedful window view second) :
    Heedful window view (if asks then first else second) := by
  split
  · exact yes
  · exact no

end Heedful

namespace Host

open Act

variable {window : Bool} {α : Type}

/-! ## Calls -/

/-- An action on a host that heeds requests for a kill. -/
abbrev Mindful (window : Bool) (action : Act Host α) : Prop := Heedful window id action

theorem mindful_record {event : Event} (kill : event.isKill = false)
    (invoke : event.isInvoke = false) : Mindful window (record event) :=
  fun host isOpen => .ok (heeds_after host kill invoke) isOpen

theorem mindful_log {level : Level} (plain : level ≠ .warn) (message : String)
    (fields : List (String × Json)) : Mindful window (Host.log level message fields) :=
  mindful_record (by cases level <;> first | rfl | cases plain rfl) rfl

theorem mindful_warn {message : String} (other : message ≠ "Kill requested")
    (fields : List (String × Json)) : Mindful window (Host.log .warn message fields) :=
  mindful_record (decide_eq_false other) rfl

theorem isRequested_request {switch : KillSwitch} {kind : KillKind} (raises : switch.raises kind)
    (reason : String) : (switch.request kind reason).isRequested := by
  have higher : ∀ held kind : KillKind, decide (held < kind) → kind.isRequested := by
    intro held kind
    cases held <;> cases kind <;> decide
  unfold KillSwitch.request
  rw [if_pos raises]
  exact higher _ _ raises

theorem interruptible_request (switch : KillSwitch) (kind : KillKind) (reason : String) :
    (switch.request kind reason).interruptible = switch.interruptible := by
  unfold KillSwitch.request
  split <;> rfl

/-- A request that raises the switch is put on record, any other has no effect. -/
theorem mindful_requestKill (kind : KillKind) (reason : String) :
    Mindful window (requestKill kind reason) := by
  intro host isOpen
  unfold requestKill
  rw [leads_bind, leads_get]
  dsimp only
  split
  · next raises =>
      rw [leads_bind, leads_set]
      refine .ok ⟨[.log .warn "Kill requested" [("kill_type", .text kind.name)]], rfl, ?_,
        List.pairwise_singleton _ _, by simp [Event.isInvoke]⟩ fun inside => ?_
      · exact iff_of_true (isRequested_request raises reason) (.inr ⟨_, List.mem_singleton_self _, rfl⟩)
      · exact (interruptible_request _ _ _).trans (isOpen inside)
  · exact .ok (.refl host) isOpen

theorem mindful_fail {error : FlowError} (unkilled : ∀ reason, error ≠ .killed reason) :
    Mindful window (fail error : Act Host α) :=
  heedful_throw fun reason same => unkilled reason (Halt.error.inj same)

theorem mindful_breakUnless (fits : Bool) (breakdown : Breakdown) :
    Mindful window (breakUnless fits breakdown) := by
  cases fits with
  | true => exact heedful_pure _
  | false => exact heedful_throw (by rintro reason ⟨⟩)

theorem mindful_sleep (duration : Duration) : Mindful window (sleep duration) := by
  intro host isOpen
  unfold sleep
  rw [leads_bind, leads_get]
  dsimp only
  rw [leads_bind, leads_set]
  dsimp only
  split
  · have signalled : Mindful window (do
        modify fun host => { host with listener := .off }
        log .warn "Received SIGTERM, killing builds started by this flow" []
        requestKill .current "SIGTERM") := by
      refine Heedful.bind (heedful_modify (fun _ => rfl) fun _ => rfl) fun _ => ?_
      exact Heedful.bind (mindful_warn (by decide) _) fun _ => mindful_requestKill _ _
    exact signalled.onward (heeds_of_same rfl rfl) isOpen
  · exact .ok (heeds_of_same rfl rfl) isOpen

theorem mindful_lookAtGraph : Mindful window lookAtGraph := by
  intro host isOpen
  unfold lookAtGraph
  rw [leads_bind, leads_get]
  dsimp only
  split
  · rw [leads_bind, leads_set]
    have seen : Mindful window (record (.graphFile host.graph.content)) := mindful_record rfl rfl
    exact seen.onward (heeds_of_same rfl rfl) isOpen
  · exact .ok (.refl host) isOpen

theorem mindful_writeGraph (content : String) : Mindful window (writeGraph content) := by
  intro host isOpen
  unfold writeGraph
  rw [leads_bind, leads_get]
  dsimp only
  split
  · exact .ok (heeds_of_same rfl rfl) isOpen
  · exact .error (.refl host) isOpen (by rintro reason ⟨⟩)
  · exact .error (.refl host) isOpen (by rintro reason ⟨⟩)

theorem mindful_perform (action : Action) : Mindful window (perform action) := by
  cases action with
  | kill kind reason => exact mindful_requestKill kind reason
  | terminate =>
      refine heedful_modify (fun host => ?_) fun host => ?_ <;> dsimp only [id] <;> split <;> rfl
  | blockGraph =>
      refine heedful_modify (fun host => ?_) fun host => ?_ <;> dsimp only [id] <;> split <;> rfl
  | _ => exact heedful_modify (fun _ => rfl) fun _ => rfl

theorem mindful_refuse (error : RunnerError) : Mindful window (refuse error : Act Host α) :=
  mindful_fail (by rintro reason ⟨⟩)

theorem mindful_attempt {call : Act Host α} (mindful : Mindful window call) :
    Mindful window (attempt call) := by
  refine (mindful.bind fun _ => heedful_pure _).tryCatch fun halt outside => ?_
  split
  · exact heedful_pure _
  · intro host isOpen
    exact ⟨.refl host, isOpen, by rintro ⟨reason, ⟨⟩⟩; exact outside reason rfl⟩

theorem mindful_meetFaults (call : Call) (job : Option String) :
    Mindful window (meetFaults call job) := by
  refine heedful_get.bind fun host => ?_
  split
  · exact mindful_refuse _
  · exact heedful_pure _
  · exact heedful_pure _

theorem mindful_setRunner (runner : Runner) : Mindful window (setRunner runner) :=
  heedful_modify (fun _ => rfl) fun _ => rfl

theorem mindful_poll : Mindful window poll :=
  (mindful_record rfl rfl).bind fun _ => mindful_lookAtGraph.bind fun _ =>
    (mindful_meetFaults _ _).discard

/-- Hooks and the script may ask for a kill while a tick passes. -/
theorem mindful_quickPoll : Mindful window quickPoll := by
  refine mindful_lookAtGraph.bind fun _ => heedful_get.bind fun host => ?_
  refine (mindful_breakUnless _ _).bind fun _ => heedful_get.bind fun host => ?_
  refine (mindful_setRunner _).bind fun _ => ?_
  refine (heedful_forM fun hook _ => mindful_requestKill _ _).bind fun _ => ?_
  refine heedful_get.bind fun host => ?_
  refine (heedful_forM fun action _ => mindful_perform _).bind fun _ => ?_
  refine heedful_get.bind fun host => (mindful_record rfl rfl).bind fun _ => ?_
  exact heedful_ite (mindful_refuse _) (mindful_meetFaults _ _).discard

theorem mindful_queuePoll : Mindful window queuePoll :=
  (mindful_record rfl rfl).bind fun _ => (mindful_meetFaults _ _).discard

theorem mindful_getJob (name : String) : Mindful window (getJob name) := by
  refine heedful_get.bind fun host => ?_
  split
  · exact (mindful_record rfl rfl).bind fun _ => mindful_refuse _
  · refine heedful_get.bind fun host => (mindful_setRunner _).bind fun _ => ?_
    exact (mindful_record rfl rfl).bind fun _ => heedful_ite (heedful_pure _) (mindful_refuse _)

theorem mindful_resolve (name : String) : Mindful window (resolve name) :=
  heedful_get.bind fun _ => heedful_ite (heedful_pure _)
    ((mindful_getJob name).bind fun _ => heedful_modify (fun _ => rfl) fun _ => rfl)

theorem mindful_job (name : String) : Mindful window (job name) := by
  refine heedful_get.bind fun host => ?_
  split
  · exact heedful_pure _
  · exact mindful_refuse _

theorem mindful_jobPoll (name : String) : Mindful window (jobPoll name) :=
  (mindful_meetFaults _ _).discard

theorem mindful_jobStatus (name : String) : Mindful window (jobStatus name) :=
  (mindful_meetFaults _ _).discard.bind fun _ => (mindful_job _).bind fun _ =>
    heedful_get.bind fun _ => (mindful_breakUnless _ _).bind fun _ => heedful_pure _

theorem mindful_build (ref : BuildRef) : Mindful window (build ref) := by
  refine (mindful_job _).bind fun job => ?_
  split
  · exact heedful_pure _
  · exact heedful_throw (by rintro reason ⟨⟩)

theorem mindful_status (ref : BuildRef) : Mindful window (status ref) :=
  (mindful_meetFaults _ _).discard.bind fun _ => (mindful_build _).bind fun _ =>
    heedful_get.bind fun _ => (mindful_breakUnless _ _).bind fun _ => heedful_pure _

theorem mindful_stop (ref : BuildRef) (dequeue : Bool) : Mindful window (stop ref dequeue) :=
  (mindful_record rfl rfl).bind fun _ => (mindful_meetFaults _ _).bind fun _ =>
    heedful_ite (heedful_pure _) <| (mindful_build _).bind fun _ =>
      heedful_get.bind fun _ => (mindful_breakUnless _ _).bind fun _ => mindful_setRunner _

theorem mindful_stopAll (name : String) : Mindful window (stopAll name) :=
  (mindful_record rfl rfl).bind fun _ => (mindful_meetFaults _ _).bind fun _ =>
    heedful_ite (heedful_pure _) <| (mindful_job _).bind fun _ =>
      heedful_get.bind fun _ => (mindful_breakUnless _ _).bind fun _ => mindful_setRunner _

theorem mindful_markStopped (name : String) : Mindful window (markStopped name) := by
  intro host isOpen
  unfold markStopped
  rw [leads_bind, leads_get]
  dsimp only
  split
  · exact .ok (.refl host) isOpen
  · exact .ok (heeds_of_same rfl rfl) isOpen

theorem mindful_enqueue (name : String) (request : InvokeRequest) :
    Mindful window (enqueue name request) := by
  refine (mindful_meetFaults _ _).discard.bind fun _ => (mindful_job _).bind fun job => ?_
  refine heedful_get.bind fun host => (mindful_breakUnless _ _).bind fun _ => ?_
  refine heedful_get.bind fun host => ?_
  split
  · exact mindful_refuse _
  · refine (mindful_setRunner _).bind fun _ => heedful_get.bind fun host => ?_
    exact (heedful_forM fun trap _ => mindful_requestKill _ _).bind fun _ => heedful_pure _

/-- A job may be invoked while no kill is requested. -/
theorem leads_invoke_unasked {host : Host} (unasked : host.kill.isRequested = false)
    (isOpen : window → host.kill.interruptible) (name : String) (request : InvokeRequest) :
    (invoke name request).Leads host fun answer after => Minds window host answer after := by
  rw [invoke_eq, leads_bind, leads_record]
  exact (mindful_enqueue name request).onward (heeds_invoke unasked name request) isOpen

end Host

end BuildFlow
