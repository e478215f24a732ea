import BuildFlow.Proofs.Secrecy.Mirror
import BuildFlow.Proofs.Secrecy.Runner
/-!
Hosts that differ only in the parameters that builds were asked for. Every call
of a flow mirrors itself on such hosts: what it answers does not depend on any
parameter of an earlier request.
-/
namespace BuildFlow

/-! ## Hosts that are alike -/

/-- The request without its parameters. -/
def InvokeRequest.veil (request : InvokeRequest) : InvokeRequest := { request with params := ∅ }

/-- What an event tells if the parameters of a request are left out. -/
def Event.veil : Event → Event
  | .invoke name request => .invoke name request.veil
  | event => event

namespace Host

/-- The hosts differ in nothing but the parameters that builds were asked for. -/
structure Alike (host other : Host) : Prop where
  runner : host.runner.bare = other.runner.bare
  kill : host.kill = other.kill
  clock : host.clock = other.clock
  graph : host.graph = other.graph
  listener : host.listener = other.listener
  roster : host.roster = other.roster
  script : host.script = other.script
  trace : host.trace.map Event.veil = other.trace.map Event.veil

theorem Alike.refl (host : Host) : Alike host host := ⟨rfl, rfl, rfl, rfl, rfl, rfl, rfl, rfl⟩

theorem Alike.symm {host other : Host} (alike : Alike host other) : Alike other host :=
  ⟨alike.runner.symm, alike.kill.symm, alike.clock.symm, alike.graph.symm, alike.listener.symm,
    alike.roster.symm, alike.script.symm, alike.trace.symm⟩

theorem Alike.trans {host other third : Host} (alike : Alike host other)
    (alike' : Alike other third) : Alike host third :=
  ⟨alike.runner.trans alike'.runner, alike.kill.trans alike'.kill, alike.clock.trans alike'.clock,
    alike.graph.trans alike'.graph, alike.listener.trans alike'.listener,
    alike.roster.trans alike'.roster, alike.script.trans alike'.script,
    alike.trace.trans alike'.trace⟩

theorem Alike.tick {host other : Host} (alike : Alike host other) :
    host.runner.tick = other.runner.tick :=
  Runner.tick_of_bare alike.runner

theorem Alike.effect? {host other : Host} (alike : Alike host other) (call : Call)
    (job : Option String) : host.effect? call job = other.effect? call job := by
  unfold Host.effect?
  rw [alike.script, alike.tick]

theorem Alike.consoleUrl? {host other : Host} (alike : Alike host other) (ref : BuildRef) :
    host.consoleUrl? ref = other.consoleUrl? ref := by
  unfold Host.consoleUrl?
  rw [alike.effect?]

theorem Alike.withRunner {host other : Host} (alike : Alike host other) {runner runner' : Runner}
    (same : runner.bare = runner'.bare) :
    Alike { host with runner } { other with runner := runner' } :=
  { alike with runner := same }

/-- What the action answers does not depend on the parameters of requests. -/
abbrev Blind {α : Type} (action : Act Host α) : Prop := Act.Mirrors Alike Eq action action

open Act

/-! ## The record and the script -/

theorem mirrors_record {event event' : Event} (same : event.veil = event'.veil) :
    Mirrors Alike Eq (record event) (record event') :=
  mirrors_modify fun _ _ alike => { alike with trace := by simp [alike.trace, same] }

theorem blind_log (level : Level) (message : String) (fields : List (String × Json)) :
    Blind (Host.log level message fields) :=
  mirrors_record rfl

theorem blind_fail {α : Type} (error : FlowError) : Blind (fail error : Act Host α) :=
  mirrors_throw _

theorem blind_breakUnless (fits : Bool) (breakdown : Breakdown) :
    Blind (breakUnless fits breakdown) := by
  cases fits with
  | true => exact mirrors_pure rfl
  | false => exact mirrors_throw _

theorem blind_requestKill (kind : KillKind) (reason : String) :
    Blind (requestKill kind reason) := by
  refine mirrors_get_bind fun host other alike => ?_
  rw [alike.kill]
  refine mirrors_ite ?_ (mirrors_pure rfl)
  exact (mirrors_set { alike with kill := rfl }).next fun _ => blind_log _ _ _

theorem blind_sleep (duration : Duration) : Blind (sleep duration) := by
  refine mirrors_get_bind fun host other alike => ?_
  rw [alike.clock]
  refine (mirrors_set { alike with clock := rfl }).next fun _ => ?_
  rw [alike.listener]
  refine mirrors_ite ?_ (mirrors_pure rfl)
  refine (mirrors_modify fun _ _ alike => { alike with listener := rfl }).next fun _ => ?_
  exact (blind_log _ _ _).next fun _ => blind_requestKill _ _

theorem blind_lookAtGraph : Blind lookAtGraph := by
  refine mirrors_get_bind fun host other alike => ?_
  rw [alike.graph]
  refine mirrors_ite ?_ (mirrors_pure rfl)
  exact (mirrors_set { alike with graph := rfl }).next fun _ => mirrors_record rfl

theorem blind_writeGraph (content : String) : Blind (writeGraph content) := by
  refine mirrors_get_bind fun host other alike => ?_
  rw [alike.graph]
  cases other.graph.place with
  | usable => exact mirrors_set { alike with graph := rfl }
  | replaced => exact blind_fail _
  | unreachable => exact blind_fail _

theorem blind_perform (action : Action) : Blind (perform action) := by
  cases action with
  | add plan =>
      exact mirrors_modify fun _ _ alike => alike.withRunner (by
        rw [Runner.bare_add, Runner.bare_add, alike.runner])
  | create job =>
      exact mirrors_modify fun _ _ alike => alike.withRunner (by
        rw [Runner.bare_create, Runner.bare_create, alike.runner])
  | delete job =>
      refine mirrors_modify fun host other alike => alike.withRunner ?_
      rw [← Option.getD_map Runner.bare, ← Option.getD_map Runner.bare, ← Runner.delete?_bare,
        ← Runner.delete?_bare, alike.runner]
  | kill kind reason => exact blind_requestKill kind reason
  | shiftClock micros =>
      exact mirrors_modify fun _ _ alike => { alike with clock := by rw [alike.clock] }
  | terminate =>
      refine mirrors_modify fun host other alike => ?_
      rw [alike.listener]
      split
      · exact { alike with listener := rfl }
      · exact alike
  | blockGraph =>
      refine mirrors_modify fun host other alike => ?_
      rw [alike.graph]
      split
      · exact { alike with graph := rfl }
      · exact alike

/-! ## Calls -/

theorem blind_refuse {α : Type} (error : RunnerError) : Blind (refuse error : Act Host α) :=
  blind_fail _

theorem blind_attempt {α : Type} {call : Act Host α} (blind : Blind call) :
    Blind (attempt call) := by
  refine (blind.next fun _ => mirrors_pure rfl).catching fun halt => ?_
  split
  · exact mirrors_pure rfl
  · exact mirrors_throw _

theorem blind_meetFaults (call : Call) (job : Option String) : Blind (meetFaults call job) := by
  refine mirrors_get_bind fun host other alike => ?_
  rw [alike.effect?]
  split
  · exact blind_refuse _
  · exact mirrors_pure rfl
  · exact mirrors_pure rfl

theorem mirrors_setRunner {runner other : Runner} (same : runner.bare = other.bare) :
    Mirrors Alike Eq (setRunner runner) (setRunner other) :=
  mirrors_modify fun _ _ alike => alike.withRunner same

theorem blind_poll : Blind poll :=
  (mirrors_record rfl).next fun _ => blind_lookAtGraph.next fun _ =>
    (blind_meetFaults _ _).discard

theorem blind_quickPoll : Blind quickPoll := by
  refine blind_lookAtGraph.next fun _ => mirrors_get_bind fun host other alike => ?_
  rw [← Runner.endsFit_bare, alike.runner, Runner.endsFit_bare]
  refine (blind_breakUnless _ _).next fun _ => mirrors_get_bind fun host other alike => ?_
  have ahead := Runner.advance_bare host.runner
  rw [alike.runner, Runner.advance_bare, Prod.mk.injEq] at ahead
  obtain ⟨runner, fired⟩ := ahead
  have tick := Runner.tick_of_bare runner
  dsimp only
  refine (mirrors_setRunner runner.symm).next fun _ => ?_
  rw [fired, tick]
  refine (mirrors_forM fun _ => blind_requestKill _ _).next fun _ => ?_
  refine mirrors_get_bind fun host other alike => ?_
  rw [alike.script]
  refine (mirrors_forM fun _ => blind_perform _).next fun _ => ?_
  refine mirrors_get_bind fun host other alike => ?_
  rw [alike.clock, alike.script]
  refine (mirrors_record rfl).next fun _ => mirrors_ite (blind_refuse _) ?_
  exact (blind_meetFaults _ _).discard

theorem blind_queuePoll : Blind queuePoll :=
  (mirrors_record rfl).next fun _ => (blind_meetFaults _ _).discard

theorem blind_getJob (name : String) : Blind (getJob name) := by
  refine mirrors_get_bind fun host other alike => ?_
  rw [alike.effect?]
  split
  · exact (mirrors_record rfl).next fun _ => blind_refuse _
  · refine mirrors_get_bind fun host other alike => ?_
    have looked := Runner.lookup_bare host.runner name
    rw [alike.runner, Runner.lookup_bare, Prod.mk.injEq] at looked
    obtain ⟨found, runner⟩ := looked
    dsimp only
    rw [found]
    refine (mirrors_setRunner runner.symm).next fun _ => (mirrors_record rfl).next fun _ => ?_
    exact mirrors_ite (mirrors_pure rfl) (blind_refuse _)

/-! ## Jobs -/

theorem mirrors_job (name : String) :
    Mirrors Alike (fun job other => job.bare = other.bare) (job name) (job name) := by
  refine mirrors_get_bind fun host other alike => ?_
  have jobs := Runner.job?_of_bare alike.runner name
  cases found : host.runner.job? name with
  | none =>
      rw [found, Option.map_none, eq_comm, Option.map_eq_none_iff] at jobs
      rw [jobs]
      exact mirrors_throw _
  | some job =>
      rw [found, Option.map_some, eq_comm, Option.map_eq_some_iff] at jobs
      obtain ⟨job', found', same⟩ := jobs
      rw [found']
      exact mirrors_pure same.symm

theorem blind_jobPoll (name : String) : Blind (jobPoll name) := (blind_meetFaults _ _).discard

theorem blind_jobStatus (name : String) : Blind (jobStatus name) := by
  refine (blind_meetFaults _ _).discard.next fun _ => ?_
  refine (mirrors_job name).bind fun job job' same => mirrors_get_bind fun host other alike => ?_
  have fits := congrArg (Job.statusFits · other.runner.tick) same
  have status := congrArg (Job.status · other.runner.tick) same
  dsimp only
  rw [alike.tick, show job.statusFits _ = job'.statusFits _ from fits,
    show job.status _ = job'.status _ from status]
  exact (blind_breakUnless _ _).next fun _ => mirrors_pure rfl

theorem mirrors_invoke (name : String) {request request' : InvokeRequest}
    (same : request.veil = request'.veil) :
    Mirrors Alike Eq (invoke name request) (invoke name request') := by
  have described : request.description = request'.description :=
    (congrArg InvokeRequest.description same :)
  have told : (Event.invoke name request).veil = (Event.invoke name request').veil :=
    congrArg (Event.invoke name) same
  refine (mirrors_record told).next fun _ => ?_
  refine (blind_meetFaults _ _).discard.next fun _ => ?_
  refine (mirrors_job name).bind fun job job' same => mirrors_get_bind fun host other alike => ?_
  have fits := congrArg (Job.flowStatusFits · other.runner.tick) same
  rw [alike.tick, show job.flowStatusFits _ = job'.flowStatusFits _ from fits]
  refine (blind_breakUnless _ _).next fun _ => mirrors_get_bind fun host other alike => ?_
  -- The runner keeps the request, but nothing it answers depends on the parameters.
  have invoked := Runner.invoke?_of_bare alike.runner name described
  cases here : host.runner.invoke? name request with
  | none =>
      rw [here, Option.map_none, eq_comm, Option.map_eq_none_iff] at invoked
      rw [invoked]
      exact blind_refuse _
  | some invoked' =>
      obtain ⟨ref, runner⟩ := invoked'
      rw [here, Option.map_some, eq_comm, Option.map_eq_some_iff] at invoked
      obtain ⟨⟨ref', runner'⟩, there, same⟩ := invoked
      rw [Prod.map_apply, Prod.map_apply, Prod.mk.injEq] at same
      obtain ⟨rfl, runners⟩ := same
      rw [there]
      refine (mirrors_setRunner runners.symm).next fun _ => ?_
      refine mirrors_get_bind fun host other alike => ?_
      rw [alike.script]
      exact (mirrors_forM fun _ => blind_requestKill _ _).next fun _ => mirrors_pure rfl

theorem blind_stopAll (name : String) : Blind (stopAll name) := by
  refine (mirrors_record rfl).next fun _ => (blind_meetFaults _ _).next fun _ => ?_
  refine mirrors_ite (mirrors_pure rfl) ?_
  refine (mirrors_job name).bind fun job job' same => mirrors_get_bind fun host other alike => ?_
  have fits := congrArg (Job.statusFits · other.runner.tick) same
  have stopped := congrArg (Job.stopAll · other.runner.tick) same
  dsimp only
  rw [alike.tick, show job.statusFits _ = job'.statusFits _ from fits]
  refine (blind_breakUnless _ _).next fun _ => mirrors_setRunner ?_
  exact Runner.bare_setJob_of_bare alike.runner name stopped

/-! ## Builds -/

theorem mirrors_build (ref : BuildRef) :
    Mirrors Alike (fun found other => found.1.bare = other.1.bare ∧ found.2 = other.2) (build ref)
      (build ref) := by
  refine (mirrors_job _).bind fun job job' same => ?_
  rw [show job.builds = job'.builds from (congrArg Job.builds same :)]
  cases job'.builds[ref.index]? with
  | none => exact mirrors_throw _
  | some build => exact mirrors_pure ⟨same, rfl⟩

theorem blind_status (ref : BuildRef) : Blind (status ref) := by
  refine (blind_meetFaults _ _).discard.next fun _ => ?_
  refine (mirrors_build ref).bind fun found other same => ?_
  obtain ⟨job, build⟩ := found
  obtain ⟨job', build'⟩ := other
  obtain ⟨-, rfl⟩ := same
  refine mirrors_get_bind fun host other alike => ?_
  dsimp only
  rw [alike.tick]
  exact (blind_breakUnless _ _).next fun _ => mirrors_pure rfl

theorem blind_stop (ref : BuildRef) (dequeue : Bool) : Blind (stop ref dequeue) := by
  refine (mirrors_record rfl).next fun _ => (blind_meetFaults _ _).next fun _ => ?_
  refine mirrors_ite (mirrors_pure rfl) ?_
  refine (mirrors_build ref).bind fun found other same => ?_
  obtain ⟨job, build⟩ := found
  obtain ⟨job', build'⟩ := other
  obtain ⟨same, rfl⟩ := same
  refine mirrors_get_bind fun host other alike => ?_
  dsimp only at same ⊢
  rw [alike.tick]
  refine (blind_breakUnless _ _).next fun _ => mirrors_setRunner ?_
  rw [Runner.stopBuild, Runner.stopBuild, alike.tick]
  refine Runner.bare_setJob_of_bare alike.runner _ ?_
  exact congrArg (fun job : Job => { job with
    builds := job.builds.set ref.index (build.stop other.runner.tick dequeue)
    stopCalls := job.stopCalls + 1 }) same

/-! ## The roster -/

theorem blind_resolve (name : String) : Blind (resolve name) := by
  refine mirrors_get_bind fun host other alike => ?_
  rw [alike.roster]
  refine mirrors_ite (mirrors_pure rfl) ?_
  exact (blind_getJob name).next fun _ =>
    mirrors_modify fun _ _ alike => { alike with roster := by rw [alike.roster] }

theorem blind_markStopped (name : String) : Blind (markStopped name) := by
  refine mirrors_get_bind fun host other alike => ?_
  dsimp only
  rw [alike.roster]
  refine mirrors_ite (mirrors_pure rfl) ?_
  exact (mirrors_set { alike with roster := rfl }).next fun _ => mirrors_pure rfl

end Host

end BuildFlow
