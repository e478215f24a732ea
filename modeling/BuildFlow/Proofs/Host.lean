import BuildFlow.Proofs.Act
import BuildFlow.Proofs.Runner
/-!
Hosts on which nobody asks for a kill and every call reaches the job table. Of
such a host a sweep changes no more than the job table, the jobs that were
looked up and the record.
-/
namespace BuildFlow

/-- Whether an action asks for no kill and leaves the runner alone. -/
def Action.isGentle : Action → Bool
  | .shiftClock _ | .blockGraph => true
  | _ => false

/-- Whether builds are asked to stop. -/
def Event.isStop : Event → Bool
  | .stop _ _ | .stopAll _ => true
  | _ => false

def Event.isInvoke : Event → Bool
  | .invoke _ _ => true
  | _ => false

/-- What a sweep works against. -/
structure World where
  runner : Runner
  resolved : List String

namespace Host

open Act

def world (host : Host) : World := ⟨host.runner, host.roster.resolved⟩

/-- Nobody asks for a kill, and every call reaches the job table. -/
structure Quiet (host : Host) : Prop where
  calm : host.kill.kind = .none
  unsignalled : host.listener ≠ .signalled
  unhooked : host.runner.hooks = []
  faultless : host.script.faults = []
  untrapped : host.script.traps = []
  gentle : ∀ action ∈ host.script.actions, action.2.isGentle

theorem Quiet.unrequested {host : Host} (quiet : host.Quiet) : host.kill.isRequested = false := by
  rw [KillSwitch.isRequested, quiet.calm]
  rfl

/-- What a sweep leaves as it is. The record only grows, and not by stops. -/
structure Stays (before after : Host) : Prop where
  kill : after.kill.kind = before.kill.kind
  listener : after.listener = before.listener
  script : after.script = before.script
  stopped : after.roster.stopped = before.roster.stopped
  hooks : after.runner.hooks = before.runner.hooks
  trace : before.trace <:+ after.trace
  stops : after.trace.filter Event.isStop = before.trace.filter Event.isStop

theorem Stays.refl (host : Host) : Stays host host :=
  ⟨rfl, rfl, rfl, rfl, rfl, List.suffix_refl _, rfl⟩

theorem Stays.trans {before middle after : Host} (left : Stays before middle)
    (right : Stays middle after) : Stays before after where
  kill := right.kill.trans left.kill
  listener := right.listener.trans left.listener
  script := right.script.trans left.script
  stopped := right.stopped.trans left.stopped
  hooks := right.hooks.trans left.hooks
  trace := left.trace.trans right.trace
  stops := right.stops.trans left.stops

theorem Stays.faultless {before after : Host} (stays : Stays before after)
    (faultless : before.script.faults = []) : after.script.faults = [] :=
  stays.script ▸ faultless

theorem Quiet.stays {before after : Host} (quiet : before.Quiet) (stays : Stays before after) :
    after.Quiet where
  calm := stays.kill.trans quiet.calm
  unsignalled := stays.listener ▸ quiet.unsignalled
  unhooked := stays.hooks ▸ quiet.unhooked
  faultless := stays.script ▸ quiet.faultless
  untrapped := stays.script ▸ quiet.untrapped
  gentle := stays.script ▸ quiet.gentle

/-- The requests for a kill that follow the invocation of a job. -/
def spring (host : Host) (name : String) : Act Host Unit :=
  (host.script.traps.filter fun trap => trap.job = name).forM fun trap =>
    requestKill trap.kind trap.reason

/-- What is relied on while a sweep goes on: `fit` holds of the host all the time,
and `goes` says how it may change. -/
structure Conduct where
  fit : Host → Prop
  goes : Host → Host → Prop
  faultless : ∀ {host}, fit host → host.script.faults = []
  stays : ∀ {before after}, Stays before after → goes before after
  trans : ∀ {before middle after}, goes before middle → goes middle after → goes before after
  kept : ∀ {before after}, fit before → goes before after → fit after
  springs : ∀ {host}, fit host → ∀ name, (host.spring name).Leads host fun answer after =>
    answer = .ok () ∧ goes host after ∧ after.world = host.world

/-- What is relied on where the visits to the children of a group are left open. -/
structure Manner where
  fit : Host → Prop
  goes : Host → Host → Prop
  stays : ∀ {before after}, Stays before after → goes before after
  trans : ∀ {before middle after}, goes before middle → goes middle after → goes before after
  kept : ∀ {before after}, fit before → goes before after → fit after

/-- Nothing is relied on. -/
def Manner.any : Manner where
  fit _ := True
  goes _ _ := True
  stays _ := trivial
  trans _ _ := trivial
  kept _ _ := trivial

namespace Conduct

variable (conduct : Conduct)

def manner : Manner where
  fit := conduct.fit
  goes := conduct.goes
  stays := conduct.stays
  trans := conduct.trans
  kept := conduct.kept

theorem refl (host : Host) : conduct.goes host host := conduct.stays (.refl host)

theorem fits {before after : Host} (fit : conduct.fit before) (stays : Stays before after) :
    conduct.fit after :=
  conduct.kept fit (conduct.stays stays)

/-- Nobody asks for a kill. -/
def quiet : Conduct where
  fit := Quiet
  goes := Stays
  faultless quiet := quiet.faultless
  stays stays := stays
  trans := .trans
  kept := Quiet.stays
  springs {host} quiet name := by
    rw [spring, quiet.untrapped]
    exact ⟨rfl, .refl host, rfl⟩

end Conduct

/-! ## The record -/

/-- A host on which something more is on record. -/
def after (host : Host) (event : Event) : Host := { host with trace := event :: host.trace }

@[simp] theorem world_after (host : Host) (event : Event) : (host.after event).world = host.world :=
  rfl

@[simp] theorem runner_after (host : Host) (event : Event) :
    (host.after event).runner = host.runner := rfl

theorem stays_after (host : Host) {event : Event} (mute : event.isStop = false) :
    Stays host (host.after event) :=
  ⟨rfl, rfl, rfl, rfl, rfl, List.suffix_cons _ _, List.filter_cons_of_neg (by simp [mute])⟩

theorem stays_log (host : Host) (level : Level) (message : String)
    (fields : List (String × Json)) : Stays host (host.after (.log level message fields)) :=
  stays_after host rfl

@[simp] theorem leads_record (event : Event) (host : Host)
    (post : Except Halt Unit → Host → Prop) :
    (record event).Leads host post ↔ post (.ok ()) (host.after event) := Iff.rfl

@[simp] theorem leads_log (level : Level) (message : String) (fields : List (String × Json))
    (host : Host) (post : Except Halt Unit → Host → Prop) :
    (Host.log level message fields).Leads host post ↔
      post (.ok ()) (host.after (.log level message fields)) := Iff.rfl

theorem leads_breakUnless (fits : Bool) (breakdown : Breakdown) (host : Host)
    (post : Except Halt Unit → Host → Prop) :
    (breakUnless fits breakdown).Leads host post ↔
      if fits then post (.ok ()) host else post (.error (.broken breakdown)) host := by
  cases fits <;> exact Iff.rfl

/-! ## Calls -/

theorem effect?_eq_none {host : Host} (faultless : host.script.faults = []) (call : Call)
    (job : Option String) : host.effect? call job = none := by
  simp [effect?, faultless]

theorem leads_meetFaults {host : Host} (faultless : host.script.faults = []) (call : Call)
    (job : Option String) (post : Except Halt Bool → Host → Prop) :
    (meetFaults call job).Leads host post ↔ post (.ok false) host := by
  unfold meetFaults
  rw [leads_bind, leads_get]
  simp only [effect?_eq_none faultless]
  exact Iff.rfl

theorem leads_attempt {α : Type} (call : Act Host α) (host : Host)
    (post : Except Halt (Except RunnerError α) → Host → Prop) :
    (attempt call).Leads host post ↔
      call.Leads host fun answer host =>
        match answer with
        | .ok value => post (.ok (.ok value)) host
        | .error (.error (.runner error)) => post (.ok (.error error)) host
        | .error halt => post (.error halt) host := by
  unfold attempt
  rw [leads_tryCatch, leads_bind]
  unfold Leads
  cases ended : call.run host with
  | mk answer host =>
      cases answer with
      | ok => exact Iff.rfl
      | error halt =>
          cases halt with
          | broken => exact Iff.rfl
          | error error => cases error <;> exact Iff.rfl

theorem leads_job (name : String) (host : Host) (post : Except Halt Job → Host → Prop) :
    (job name).Leads host post ↔
      match host.runner.job? name with
      | some job => post (.ok job) host
      | none => post (.error (.error (.runner (.unknownJob name)))) host := by
  unfold Host.job
  rw [leads_bind, leads_get]
  dsimp only
  cases host.runner.job? name <;> exact Iff.rfl

theorem leads_jobPoll {host : Host} (faultless : host.script.faults = []) (name : String)
    (post : Except Halt Unit → Host → Prop) :
    (jobPoll name).Leads host post ↔ post (.ok ()) host := by
  unfold jobPoll
  rw [leads_discard, leads_meetFaults faultless]

theorem leads_jobStatus {host : Host} (faultless : host.script.faults = []) (name : String)
    (post : Except Halt JobStatus → Host → Prop) :
    (jobStatus name).Leads host post ↔
      match host.runner.job? name with
      | some job =>
          if job.statusFits host.runner.tick then post (.ok (job.status host.runner.tick)) host
          else post (.error (.broken .ticks)) host
      | none => post (.error (.error (.runner (.unknownJob name)))) host := by
  unfold jobStatus
  rw [leads_bind, leads_discard, leads_meetFaults faultless]
  simp only [leads_bind, leads_job, leads_get, leads_breakUnless, leads_pure]

theorem leads_status {host : Host} (faultless : host.script.faults = []) (ref : BuildRef)
    (post : Except Halt (BuildResult × Progress) → Host → Prop) :
    (status ref).Leads host post ↔
      match host.runner.job? ref.job with
      | some job =>
          match job.builds[ref.index]? with
          | some build =>
              if build.statusFits host.runner.tick then
                post (.ok (build.status host.runner.tick)) host
              else post (.error (.broken .ticks)) host
          | none => post (.error (.broken .build)) host
      | none => post (.error (.error (.runner (.unknownJob ref.job)))) host := by
  unfold Host.status Host.build
  rw [leads_bind, leads_discard, leads_meetFaults faultless]
  simp only [leads_bind, leads_job]
  cases found : host.runner.job? ref.job with
  | none => exact Iff.rfl
  | some job =>
      dsimp only
      cases held : job.builds[ref.index]? with
      | none => exact Iff.rfl
      | some build => simp only [leads_pure, leads_get, leads_breakUnless]

/-- Looks a job up and counts the look-up. -/
def lookedUp (host : Host) (name : String) : Host :=
  ({ host with runner := (host.runner.lookup name).2 }).after
    (.getJob name (host.runner.lookup name).1)

/-- Keeps the name of a job that was looked up. -/
def keep (host : Host) (name : String) : Host :=
  { host with roster := { host.roster with resolved := host.roster.resolved ++ [name] } }

theorem leads_getJob {host : Host} (faultless : host.script.faults = []) (name : String)
    (post : Except Halt Unit → Host → Prop) :
    (getJob name).Leads host post ↔
      if (host.runner.lookup name).1 then post (.ok ()) (host.lookedUp name)
      else post (.error (.error (.runner (.unknownJob name)))) (host.lookedUp name) := by
  unfold getJob
  rw [leads_bind, leads_get]
  simp only [effect?_eq_none faultless]
  change (if (host.runner.lookup name).1 then pure () else refuse (.unknownJob name) :
    Act Host Unit).Leads (host.lookedUp name) post ↔ _
  cases (host.runner.lookup name).1 <;> exact Iff.rfl

theorem leads_resolve {host : Host} (faultless : host.script.faults = []) (name : String)
    (post : Except Halt Unit → Host → Prop) :
    (resolve name).Leads host post ↔
      if name ∈ host.roster.resolved then post (.ok ()) host
      else if (host.runner.lookup name).1 then post (.ok ()) ((host.lookedUp name).keep name)
      else post (.error (.error (.runner (.unknownJob name)))) (host.lookedUp name) := by
  unfold resolve
  rw [leads_bind, leads_get]
  dsimp only
  split
  · exact Iff.rfl
  · rw [leads_bind, leads_getJob faultless]
    cases (host.runner.lookup name).1 <;> exact Iff.rfl

/-- A host with another job table. -/
def withRunner (host : Host) (runner : Runner) : Host := { host with runner }

theorem stays_withRunner (host : Host) {runner : Runner} (hooks : runner.hooks = host.runner.hooks) :
    Stays host (host.withRunner runner) :=
  ⟨rfl, rfl, rfl, rfl, hooks, List.suffix_refl _, rfl⟩

/-- What follows once a request for a build is on record. -/
def enqueue (name : String) (request : InvokeRequest) : Act Host BuildRef := do
  discard <| meetFaults .invoke name
  let job ← job name
  breakUnless (job.flowStatusFits (← get).runner.tick) .ticks
  match (← get).runner.invoke? name request with
  | none => refuse (.unknownJob name)
  | some (ref, runner) =>
      setRunner runner
      ((← get).script.traps.filter fun trap => trap.job = name).forM fun trap =>
        requestKill trap.kind trap.reason
      return ref

theorem invoke_eq (name : String) (request : InvokeRequest) :
    invoke name request = (do
      record (.invoke name request)
      enqueue name request) := rfl

theorem leads_invoke (conduct : Conduct) {host : Host} (fit : conduct.fit host) (name : String)
    (request : InvokeRequest) {post : Except Halt BuildRef → Host → Prop}
    (missing : host.runner.job? name = none →
      post (.error (.error (.runner (.unknownJob name)))) (host.after (.invoke name request)))
    (overrun : ∀ job, host.runner.job? name = some job → ¬ job.flowStatusFits host.runner.tick →
      post (.error (.broken .ticks)) (host.after (.invoke name request)))
    (invoked : ∀ ref runner after, host.runner.invoke? name request = some (ref, runner) →
      conduct.goes host after → after.world = ⟨runner, host.roster.resolved⟩ →
      post (.ok ref) after) :
    (invoke name request).Leads host post := by
  have requested : Stays host (host.after (.invoke name request)) := stays_after host rfl
  have faultless := conduct.faultless (conduct.fits fit requested)
  rw [invoke_eq, leads_bind, leads_record]
  dsimp only
  unfold enqueue
  rw [leads_bind, leads_discard, leads_meetFaults faultless]
  simp only [leads_bind, leads_job, leads_get, leads_breakUnless, runner_after]
  cases found : host.runner.job? name with
  | none => exact missing found
  | some job =>
      dsimp only
      by_cases fits : job.flowStatusFits host.runner.tick
      · simp only [fits, ↓reduceIte]
        obtain ⟨⟨ref, runner⟩, started⟩ : ∃ made, host.runner.invoke? name request = some made :=
          ⟨_, by rw [Runner.invoke?, found]; rfl⟩
        obtain ⟨-, -, -, -, -, hooks, -⟩ := Runner.invoke?_eq_some started
        have goes := requested.trans (stays_withRunner _ hooks)
        rw [started]
        dsimp only
        rw [leads_bind, setRunner, leads_modify]
        dsimp only
        rw [leads_bind, leads_get]
        dsimp only
        rw [leads_bind]
        -- The runner takes the request before any trap that is set for it springs.
        refine (conduct.springs (conduct.fits fit goes) name).mono ?_
        rintro answer after ⟨rfl, onward, same⟩
        exact invoked ref runner after started (conduct.trans (conduct.stays goes) onward) same
      · simp only [fits, Bool.false_eq_true, ↓reduceIte]
        exact overrun job found fits

theorem stays_lookedUp (host : Host) (name : String) : Stays host (host.lookedUp name) :=
  (stays_withRunner host (Runner.hooks_lookup _ _)).trans (stays_after _ rfl)

theorem stays_keep (host : Host) (name : String) : Stays host (host.keep name) :=
  ⟨rfl, rfl, rfl, rfl, rfl, List.suffix_refl _, rfl⟩

end Host

namespace NodeAct

theorem leads_log {ν : Type} {state : ν × Host} (level : Level) (message : String)
    (fields : List (String × Json)) (post : Except Halt Unit → ν × Host → Prop) :
    Act.Leads (log level message fields : NodeAct ν Unit) state post ↔
      post (.ok ()) (state.1, state.2.after (.log level message fields)) := Iff.rfl

end NodeAct

end BuildFlow
