import BuildFlow.Proofs.Flow.Rounds
/-!
Whole runs on a quiet host: the jobs are looked up, the loop goes on from the
prepared tree, and what the loop came to is what the run answers.
-/
namespace BuildFlow

open NodeAct Act

namespace Host

/-! ## Reports -/

theorem mild_define (tree : Tree) (order : List String) : Mild (tree.define order) := by
  refine mild_forM fun task _ => ?_
  unfold Task.define
  dsimp only
  cases task.jobUrl? with
  | none => exact (mild_log _ _ _).bind (mild_forM fun _ _ => mild_log _ _ _)
  | some url => exact (mild_log _ _ _).bind (mild_forM fun _ _ => mild_log _ _ _)

/-- The action leaves the job table and the roster alone, and only a build whose
end cannot be told keeps it from its end. -/
def Tells {α : Type} (action : Act Host α) : Prop :=
  ∀ host : Host, host.Quiet → action.Leads host fun answer after =>
    Stays host after ∧ after.world = host.world ∧
      ∀ halt, answer = .error halt → halt = .broken .ticks ∧ ¬ host.runner.Fits

theorem Mild.tells {action : Act Host Unit} (mild : Mild action) : Tells action := by
  intro host quiet
  refine (mild host quiet.faultless).mono ?_
  rintro answer after ⟨rfl, stays, same⟩
  exact ⟨stays, same, nofun⟩

theorem Tells.bind {α β : Type} {first : Act Host α} {second : α → Act Host β}
    (tells : Tells first) (tells' : ∀ value, Tells (second value)) : Tells (first >>= second) := by
  intro host quiet
  rw [leads_bind]
  refine (tells host quiet).mono ?_
  rintro answer there ⟨stays, same, fails⟩
  cases answer with
  | error halt => exact ⟨stays, same, fun _ same => fails _ (by cases same; rfl)⟩
  | ok value =>
      refine (tells' value there (quiet.stays stays)).mono ?_
      rintro answer after ⟨onward, same', fails'⟩
      refine ⟨stays.trans onward, same'.trans same, fun halt same'' => ?_⟩
      have runner : there.runner = host.runner := congrArg World.runner same
      exact runner ▸ fails' halt same''

theorem tells_pure {α : Type} (value : α) : Tells (pure value : Act Host α) :=
  fun host _ => ⟨.refl host, rfl, nofun⟩

theorem tells_get : Tells (get : Act Host Host) := fun host _ => ⟨.refl host, rfl, nofun⟩

theorem tells_jobStatus (name : String) : Tells (attempt (jobStatus name)) := by
  intro host quiet
  rw [leads_attempt, leads_jobStatus quiet.faultless]
  cases found : host.runner.job? name with
  | none => exact ⟨.refl host, rfl, nofun⟩
  | some job =>
      dsimp only
      split
      · exact ⟨.refl host, rfl, nofun⟩
      · next overrun =>
          refine ⟨.refl host, rfl, fun halt same => ?_⟩
          cases same
          exact ⟨rfl, fun fits => overrun (fits.statusFits found _)⟩

theorem tells_finalProgress (task : Task) : Tells task.finalProgress := by
  refine (tells_jobStatus task.name).bind fun status => ?_
  cases status with
  | ok status => exact tells_pure _
  | error error => exact (mild_log _ _ _).tells.bind fun _ => tells_pure _

theorem tells_finalTask (task : Task) : Tells task.finalStatus := by
  unfold Task.finalStatus
  dsimp only
  split
  · exact (mild_log _ _ _).tells
  · split
    · exact (mild_log _ _ _).tells
    · exact (tells_finalProgress task).bind fun _ => tells_get.bind fun _ => (mild_log _ _ _).tells

theorem tells_finalStatus (tree : Tree) : Tells tree.finalStatus := by
  induction tree using Tree.childrenInduction with
  | leaf leaf => exact tells_finalTask leaf
  | branch group children ih =>
      have below : Tells (Tree.finalStatuses children) := by
        induction children with
        | nil => exact tells_pure ()
        | cons child rest ihRest =>
            exact (ih child List.mem_cons_self).bind fun _ =>
              ihRest fun other member => ih other (List.mem_cons_of_mem _ member)
      exact (mild_log _ _ _).tells.bind fun _ => below.bind fun _ => (mild_log _ _ _).tells

end Host

namespace Flow

/-! ## From the first look at the jobs to the final status -/

/-- Looks the jobs up and prepares the tree. The answer is the time between sweeps. -/
def setUp : Step Duration := do
  log .info "--- Getting initial job status ---" []
  onHost Host.poll
  let state ← NodeAct.host
  visitRoot (Tree.prepareFirst ((← node).sweepAt state.clock state.kill.isRequested))
  log .debug "Resolved job handles" [("jobs", .nat (← NodeAct.host).roster.resolved.length)]
  let flow ← node
  onHost (flow.root.define flow.settings.displayOrder)
  writeGraph
  let start := (← NodeAct.host).clock
  modifyNode fun flow => { flow with start, lastGraph := start }
  log .info "--- Starting flow ---" [("started_at", .text start.iso)]
  match flow.config.sleepDuration? with
  | none => throw (.broken .interval)
  | some sleep => return sleep

/-- What is left of the preparations once the tree is prepared. -/
def launch : Step Duration := do
  log .debug "Resolved job handles" [("jobs", .nat (← NodeAct.host).roster.resolved.length)]
  let flow ← node
  onHost (flow.root.define flow.settings.displayOrder)
  writeGraph
  let start := (← NodeAct.host).clock
  modifyNode fun flow => { flow with start, lastGraph := start }
  log .info "--- Starting flow ---" [("started_at", .text start.iso)]
  match flow.config.sleepDuration? with
  | none => throw (.broken .interval)
  | some sleep => return sleep

theorem setUp_eq : (setUp : Step Duration) = (do
    log .info "--- Getting initial job status ---" []
    onHost Host.poll
    let state ← NodeAct.host
    visitRoot (Tree.prepareFirst ((← node).sweepAt state.clock state.kill.isRequested))
    launch) := rfl

/-- Tells what the loop of a run came to. -/
def tell (looped : Except Halt Unit) : Step BuildResult := do
  log .info "--- Final status ---" []
  onHost (← node).root.finalStatus
  let written ← outcome writeGraph
  match looped, written with
  | .error halt, _ => throw halt
  | _, .error halt => throw halt
  | .ok (), .ok () => return (← node).result

theorem drive_eq : (drive : Step BuildResult) = (do
    let sleep ← setUp
    let looped ← outcome (pollLoop sleep (roundsLeft (← NodeAct.host)))
    tell looped) := by
  unfold drive setUp
  simp only [bind_assoc]
  iterate 7 refine bind_congr fun _ => ?_
  refine bind_congr fun flow => ?_
  iterate 5 refine bind_congr fun _ => ?_
  cases flow.config.sleepDuration? with
  | none => exact (throw_bind _ _).symm
  | some sleep => exact (pure_bind _ _).symm

/-- Where looking the jobs up and preparing the tree leads. -/
inductive SetUp (config : RunConfig) (requireIdle : Bool) (tree : Tree) (world : World) :
    Except Halt Duration → Tree → World → Prop
  | unprepared {next : Tree} {after : World} {halt : Halt}
      (prepared : tree.Prepared requireIdle world (.error halt) next after) :
      SetUp config requireIdle tree world (.error halt) next after
  | unwritten {next : Tree} {after : World} {fault : FileFault}
      (prepared : tree.Prepared requireIdle world (.ok ()) next after)
      (written : config.graphDir.isSome) :
      SetUp config requireIdle tree world (.error (.error (.file fault))) next after
  | unslept {next : Tree} {after : World}
      (prepared : tree.Prepared requireIdle world (.ok ()) next after)
      (unslept : config.sleepDuration? = none) :
      SetUp config requireIdle tree world (.error (.broken .interval)) next after
  | ready {next : Tree} {after : World} {sleep : Duration}
      (prepared : tree.Prepared requireIdle world (.ok ()) next after) :
      SetUp config requireIdle tree world (.ok sleep) next after

/-- What a run makes of how its loop ended. -/
inductive Concluded (dir : Bool) (tree : Tree) (world : World) :
    Except Halt Unit → Except Halt BuildResult → Prop
  | halted {halt : Halt} : Concluded dir tree world (.error halt) (.error halt)
  | finished : Concluded dir tree world (.ok ()) (.ok tree.result)
  | unwritten (written : dir) {fault : FileFault} :
      Concluded dir tree world (.ok ()) (.error (.error (.file fault)))
  | overrun {ended : Except Halt Unit} (overrun : ¬ world.runner.Fits) :
      Concluded dir tree world ended (.error (.broken .ticks))

/-- Where the main part of a run leads. -/
inductive Driven (config : RunConfig) (requireIdle : Bool) (limit : Nat) (reads : Instant → Prop)
    (tree : Tree) (world : World) : Except Halt BuildResult → Tree → World → Prop
  | unprepared {next : Tree} {after : World} {halt : Halt}
      (prepared : tree.Prepared requireIdle world (.error halt) next after) :
      Driven config requireIdle limit reads tree world (.error halt) next after
  | unwritten {next : Tree} {after : World} {fault : FileFault}
      (prepared : tree.Prepared requireIdle world (.ok ()) next after)
      (written : config.graphDir.isSome) :
      Driven config requireIdle limit reads tree world (.error (.error (.file fault))) next after
  | unslept {next : Tree} {after : World}
      (prepared : tree.Prepared requireIdle world (.ok ()) next after)
      (unslept : config.sleepDuration? = none) :
      Driven config requireIdle limit reads tree world (.error (.broken .interval)) next after
  | looped {first last : Tree} {there after : World} {ended : Except Halt Unit}
      {answer : Except Halt BuildResult}
      (prepared : tree.Prepared requireIdle world (.ok ()) first there)
      (looped : Looped config.graphDir.isSome limit reads first there ended last after)
      (concluded : Concluded config.graphDir.isSome last after ended answer) :
      Driven config requireIdle limit reads tree world answer last after

/-- Telling what the loop came to changes nothing that a sweep looks at. -/
theorem leads_tell (looped : Except Halt Unit) {flow : Flow} {host : Host} (quiet : host.Quiet) :
    (tell looped).Leads (flow, host) fun answer state =>
      state.1 = flow ∧ Host.Stays host state.2 ∧ state.2.world = host.world ∧
        Concluded flow.config.graphDir.isSome flow.root host.world looped answer := by
  unfold tell
  rw [leads_bind, leads_log]
  dsimp only
  rw [leads_bind, leads_node]
  dsimp only
  rw [leads_bind, leads_onHost]
  have logged := Host.stays_log host .info "--- Final status ---" []
  refine (Host.tells_finalStatus flow.root _ (quiet.stays logged)).mono ?_
  rintro answer told ⟨onward, same, fails⟩
  replace onward := logged.trans onward
  replace same : told.world = host.world := same
  cases answer with
  | error halt =>
      obtain ⟨rfl, overrun⟩ := fails halt rfl
      exact ⟨rfl, onward, same, .overrun overrun⟩
  | ok =>
      dsimp only
      rw [leads_bind, leads_outcome]
      refine leads_writeGraph.mono ?_
      rintro answer ⟨_, last⟩ ⟨rfl, further, same', fails⟩
      replace further := onward.trans further
      replace same := same'.trans same
      cases looped with
      | error halt => exact ⟨rfl, further, same, .halted⟩
      | ok =>
          cases answer with
          | error halt =>
              obtain ⟨written, fault, rfl⟩ := fails halt rfl
              exact ⟨rfl, further, same, .unwritten written⟩
          | ok => exact ⟨rfl, further, same, .finished⟩

/-- The loop and what is told of it. -/
theorem leads_loop (sleep : Duration) {flow : Flow} {host : Host} (quiet : host.Quiet) :
    (do
      let looped ← outcome (pollLoop sleep (roundsLeft (← NodeAct.host)))
      tell looped : Step BuildResult).Leads (flow, host)
      fun answer state =>
        state.1.config = flow.config ∧ Host.Stays host state.2 ∧ ∃ ended,
          Looped flow.config.graphDir.isSome host.script.maxTicks state.2.reads flow.root
            host.world ended state.1.root state.2.world ∧
          Concluded flow.config.graphDir.isSome state.1.root state.2.world ended answer := by
  rw [leads_bind, leads_host]
  dsimp only
  rw [leads_bind, leads_outcome]
  refine (leads_pollLoop sleep _ quiet (Nat.succ_le_succ (Nat.zero_le _))
    (by omega)).mono ?_
  rintro ended ⟨flow', there⟩ ⟨config, stays, looped⟩
  dsimp only at config stays looped ⊢
  refine (leads_tell ended (quiet.stays stays)).mono ?_
  rintro answer ⟨_, told⟩ ⟨rfl, onward, same, concluded⟩
  rw [config, ← same] at concluded
  rw [← same] at looped
  exact ⟨config, stays.trans onward, ended, looped.mono fun now => onward.reads, concluded⟩

/-- What becomes of a pass over the tree before the loop begins. -/
inductive Readied (config : RunConfig) : Except Halt Unit → Except Halt Duration → Prop
  | unprepared {halt : Halt} : Readied config (.error halt) (.error halt)
  | unwritten {fault : FileFault} (written : config.graphDir.isSome) :
      Readied config (.ok ()) (.error (.error (.file fault)))
  | unslept (unslept : config.sleepDuration? = none) :
      Readied config (.ok ()) (.error (.broken .interval))
  | ready {sleep : Duration} (slept : config.sleepDuration? = some sleep) :
      Readied config (.ok ()) (.ok sleep)

/-- The pass over the tree, on a host that has been polled. -/
def firstPass (flow : Flow) (polled : Host) : Except Halt Unit × Tree × Host :=
  Tree.prepareFirst (flow.sweepAt polled.clock polled.kill.isRequested) flow.root polled

/-- Nothing but the pass over the tree has changed the tree and the world. -/
structure SetsUp (flow : Flow) (host polled : Host) (answer : Except Halt Duration)
    (next : Flow × Host) : Prop where
  config : next.1.config = flow.config
  polls : Host.Stays host polled
  same : polled.world = host.world
  root : next.1.root = (flow.firstPass polled).2.1
  stays : Host.Stays (flow.firstPass polled).2.2 next.2
  world : next.2.world = (flow.firstPass polled).2.2.world
  readied : Readied flow.config (flow.firstPass polled).1 answer

/-- What follows the pass over the tree changes neither the tree nor the world. -/
theorem leads_launch {flow : Flow} {host : Host} (faultless : host.script.faults = []) :
    (launch : Step Duration).Leads (flow, host) fun answer state =>
      state.1.config = flow.config ∧ state.1.root = flow.root ∧ Host.Stays host state.2 ∧
        state.2.world = host.world ∧ Readied flow.config (.ok ()) answer := by
  unfold launch
  rw [leads_bind, leads_host]
  dsimp only
  rw [leads_bind, leads_log]
  dsimp only
  rw [leads_bind, leads_node]
  dsimp only
  rw [leads_bind, leads_onHost]
  have logged := Host.stays_log host .debug "Resolved job handles"
    [("jobs", .nat host.roster.resolved.length)]
  refine (Host.mild_define flow.root _ _ (logged.faultless faultless)).mono ?_
  rintro answer defined ⟨rfl, defines, same⟩
  replace defines := logged.trans defines
  replace same : defined.world = host.world := same
  dsimp only
  rw [leads_bind]
  refine leads_writeGraph.mono ?_
  rintro answer ⟨_, drawn⟩ ⟨rfl, draws, same', fails⟩
  replace draws := defines.trans draws
  replace same := same'.trans same
  cases answer with
  | error halt =>
      obtain ⟨written, fault, rfl⟩ := fails halt rfl
      exact ⟨rfl, rfl, draws, same, .unwritten written⟩
  | ok =>
      dsimp only
      rw [leads_bind, leads_host]
      dsimp only
      rw [leads_bind, leads_modifyNode]
      dsimp only
      rw [leads_bind, leads_log]
      replace draws := draws.trans (Host.stays_log drawn .info "--- Starting flow ---"
        [("started_at", .text drawn.clock.iso)])
      dsimp only
      split
      · next unslept => exact ⟨rfl, rfl, draws, same, .unslept unslept⟩
      · next slept => exact ⟨rfl, rfl, draws, same, .ready slept⟩

theorem leads_setUp_readied {flow : Flow} {host : Host} (faultless : host.script.faults = [])
    (stays : ∀ polled : Host, polled.script.faults = [] →
      Host.Stays polled (flow.firstPass polled).2.2) :
    (setUp : Step Duration).Leads (flow, host) fun answer state =>
      ∃ polled, SetsUp flow host polled answer state := by
  rw [setUp_eq, leads_bind, leads_log]
  dsimp only
  rw [leads_bind, leads_onHost]
  have logged := Host.stays_log host .info "--- Getting initial job status ---" []
  refine (Host.mild_poll _ (logged.faultless faultless)).mono ?_
  rintro answer polled ⟨rfl, polls, same⟩
  replace polls := logged.trans polls
  replace same : polled.world = host.world := same
  dsimp only
  rw [leads_bind, leads_host]
  dsimp only
  rw [leads_bind, leads_node]
  dsimp only
  rw [leads_bind]
  unfold visitRoot
  rw [leads_bind, leads_node]
  dsimp only
  rw [leads_onPart]
  have onward := stays polled (polls.faultless faultless)
  generalize passed : flow.firstPass polled = out at onward
  unfold firstPass at passed
  rw [passed]
  obtain ⟨answer, first, there⟩ := out
  dsimp only at onward ⊢
  -- From here on it is enough to say how the world and the answer go on.
  have whole : ∀ {answer' : Except Halt Duration} {next : Flow × Host},
      next.1.config = flow.config → next.1.root = first → Host.Stays there next.2 →
      next.2.world = there.world → Readied flow.config answer answer' →
      ∃ polled, SetsUp flow host polled answer' next := by
    intro answer' next config root stays world readied
    refine ⟨polled, config, polls, same, ?_, ?_, ?_, ?_⟩ <;>
      (unfold firstPass; rw [passed]; assumption)
  cases answer with
  | error halt => exact whole rfl rfl (Host.Stays.refl there) rfl .unprepared
  | ok =>
      refine (leads_launch ((polls.trans onward).faultless faultless)).mono ?_
      rintro answer next ⟨config, root, stays, world, readied⟩
      exact whole config root stays world readied

/-- What is known of the pass over a tree that was not invoked yet. -/
theorem firstPass_prepared {flow : Flow} (fresh : flow.root.IsFresh) {polled : Host}
    (faultless : polled.script.faults = []) :
    Host.Stays polled (flow.firstPass polled).2.2 ∧
      flow.root.Prepared flow.settings.requireIdle polled.world (flow.firstPass polled).1
        (flow.firstPass polled).2.1 (flow.firstPass polled).2.2.world :=
  Tree.prepareFirst_prepared (flow.sweepAt polled.clock polled.kill.isRequested) flow.root fresh
    polled faultless

theorem leads_setUp {flow : Flow} {host : Host} (faultless : host.script.faults = [])
    (fresh : flow.root.IsFresh) :
    (setUp : Step Duration).Leads (flow, host) fun answer state =>
      state.1.config = flow.config ∧ Host.Stays host state.2 ∧
        SetUp flow.config flow.settings.requireIdle flow.root host.world answer state.1.root
          state.2.world := by
  apply (leads_setUp_readied faultless fun _ faultless => (firstPass_prepared fresh faultless).1).mono
  rintro answer state ⟨polled, setsUp⟩
  obtain ⟨passes, prepared⟩ := firstPass_prepared fresh (setsUp.polls.faultless faultless)
  rw [setsUp.same, ← setsUp.root, ← setsUp.world] at prepared
  refine ⟨setsUp.config, (setsUp.polls.trans passes).trans setsUp.stays, ?_⟩
  have readied := setsUp.readied
  generalize (flow.firstPass polled).1 = passed at readied prepared
  cases readied with
  | unprepared => exact .unprepared prepared
  | unwritten written => exact .unwritten prepared written
  | unslept unslept => exact .unslept prepared unslept
  | ready => exact .ready prepared

theorem leads_drive {flow : Flow} {host : Host} (quiet : host.Quiet) (fresh : flow.root.IsFresh) :
    (drive : Step BuildResult).Leads (flow, host) fun answer state =>
      state.1.config = flow.config ∧ Host.Stays host state.2 ∧
        Driven flow.config flow.settings.requireIdle host.script.maxTicks state.2.reads flow.root
          host.world answer state.1.root state.2.world := by
  rw [drive_eq, leads_bind]
  refine (leads_setUp quiet.faultless fresh).mono ?_
  rintro answer ⟨prepared, there⟩ ⟨config, stays, led⟩
  dsimp only at config stays led
  generalize same : there.world = world at led
  cases led with
  | unprepared unprepared => exact ⟨config, stays, .unprepared (same ▸ unprepared)⟩
  | unwritten ready written => exact ⟨config, stays, .unwritten (same ▸ ready) written⟩
  | unslept ready unslept => exact ⟨config, stays, .unslept (same ▸ ready) unslept⟩
  | ready ready =>
      refine (leads_loop _ (quiet.stays stays)).mono ?_
      rintro answer state ⟨config', onward, ended, looped, concluded⟩
      rw [config, stays.script, same] at looped
      rw [config] at concluded
      exact ⟨config'.trans config, stays.trans onward, .looped ready looped concluded⟩

/-! ## The whole run -/

/-- Where a run leads. -/
inductive Ran (flow : Flow) (limit : Nat) (reads : Instant → Prop) (world : World) :
    Except Halt BuildResult → Tree → World → Prop
  | unwritten (written : flow.config.graphDir.isSome) {fault : FileFault} :
      Ran flow limit reads world (.error (.error (.file fault))) flow.root world
  | idle (idle : flow.config.justDump ∨ flow.root.children = []) :
      Ran flow limit reads world (.ok flow.root.result) flow.root world
  | halted {last : Tree} {after : World} {halt : Halt}
      (driven : Driven flow.config flow.settings.requireIdle limit reads flow.root world
        (.error halt) last after) :
      Ran flow limit reads world (.error halt) last after
  | finished {last : Tree} {after : World} {result : BuildResult}
      (driven : Driven flow.config flow.settings.requireIdle limit reads flow.root world
        (.ok result) last after)
      (fine : result = .success ∨ flow.config.raiseIfUnsuccessful = false) :
      Ran flow limit reads world (.ok result) last after
  | raised {last : Tree} {after : World} {result : BuildResult}
      (driven : Driven flow.config flow.settings.requireIdle limit reads flow.root world
        (.ok result) last after)
      (bad : result ≠ .success) :
      Ran flow limit reads world (.error (.error (.finalResult result))) last after

theorem Driven.mono {config : RunConfig} {requireIdle : Bool} {limit : Nat}
    {reads wider : Instant → Prop} (widens : ∀ now, reads now → wider now) {tree next : Tree}
    {world after : World} {answer : Except Halt BuildResult}
    (driven : Driven config requireIdle limit reads tree world answer next after) :
    Driven config requireIdle limit wider tree world answer next after := by
  cases driven with
  | unprepared prepared => exact .unprepared prepared
  | unwritten prepared written => exact .unwritten prepared written
  | unslept prepared unslept => exact .unslept prepared unslept
  | looped prepared looped concluded => exact .looped prepared (looped.mono widens) concluded

theorem leads_setListener {flow : Flow} {host : Host} (listener : Listener)
    (post : Except Halt Unit → Flow × Host → Prop) :
    (setListener listener : Step Unit).Leads (flow, host) post ↔
      post (.ok ()) (flow, { host with listener }) := Iff.rfl

/-- A run after its flow was judged worth running. -/
def mainRun (flow : Flow) : Step BuildResult := do
  let ended ← outcome drive
  setListener .off
  log .info "Flow finished" []
  match ended with
  | .error (.error error) =>
      log .warn ("Flow failed: " ++ error.message) []
      throw (.error error)
  | .error halt => throw halt
  | .ok result =>
      if flow.mustRaise (← NodeAct.host) result then throw (.error (.finalResult result))
      else return result

/-- Ends a run with what its main part came to. -/
def conclude (flow : Flow) (ended : Except Halt BuildResult) : Step BuildResult := do
  setListener .off
  log .info "Flow finished" []
  match ended with
  | .error (.error error) =>
      log .warn ("Flow failed: " ++ error.message) []
      throw (.error error)
  | .error halt => throw halt
  | .ok result =>
      if flow.mustRaise (← NodeAct.host) result then throw (.error (.finalResult result))
      else return result

theorem mainRun_eq (flow : Flow) : mainRun flow = outcome drive >>= conclude flow := rfl

/-- What a run does once it is known whether all builds are to be stopped. -/
def proceed (flow : Flow) : Step BuildResult := do
  if flow.config.handleTermination then setListener .waiting
  mainRun flow

theorem run_eq : (run : Step BuildResult) = (do
    writeGraph
    let flow ← node
    if flow.config.justDump then return flow.result
    else if flow.root.children.isEmpty then
      log .warn ("WARNING: Empty toplevel flow " ++ flow.root.sequence ++ ", nothing to do.") []
      return flow.result
    else if flow.config.killAll then
      onHost (Host.requestKill .all "Killing all running builds of jobs in flow")
      proceed flow
    else proceed flow) := rfl

/-- Unless it raises its result, a run ends as its main part did. -/
theorem ran_conclude {flow last : Flow} {host : Host} {limit : Nat} {world : World}
    {ended : Except Halt BuildResult} (calm : host.kill.kind = .none)
    (driven : Driven flow.config flow.settings.requireIdle limit host.reads flow.root world ended
      last.root host.world) :
    (conclude flow ended).Leads (last, host) fun answer state =>
      Ran flow limit state.2.reads world answer state.1.root state.2.world := by
  unfold conclude
  rw [leads_bind, leads_setListener]
  dsimp only
  rw [leads_bind, leads_log]
  -- The last entries of the log read no clock.
  have driven' : Driven flow.config flow.settings.requireIdle limit
      (({ host with listener := .off } : Host).after (.log .info "Flow finished" [])).reads flow.root
      world ended last.root host.world :=
    driven.mono fun now ⟨tick, member⟩ => ⟨tick, List.mem_cons_of_mem _ member⟩
  cases ended with
  | error halt =>
      cases halt with
      | broken breakdown => exact .halted driven'
      | error error =>
          exact .halted (driven'.mono fun now ⟨tick, member⟩ => ⟨tick, List.mem_cons_of_mem _ member⟩)
  | ok result =>
      dsimp only
      rw [leads_bind, leads_host]
      dsimp only
      split
      · next raises =>
          have bad : result ≠ .success := by
            simp only [mustRaise, Bool.and_eq_true, decide_eq_true_eq] at raises
            exact raises.1.1
          exact .raised driven' bad
      · next fine =>
          refine .finished driven' ?_
          by_cases success : result = .success
          · exact .inl success
          · refine .inr ?_
            simpa [mustRaise, success, Host.after, calm] using fine

theorem leads_mainRun {flow : Flow} {host : Host} (quiet : host.Quiet)
    (fresh : flow.root.IsFresh) :
    (mainRun flow).Leads (flow, host) fun answer state =>
      Ran flow host.script.maxTicks state.2.reads host.world answer state.1.root
        state.2.world := by
  rw [mainRun_eq, leads_bind, leads_outcome]
  refine (leads_drive quiet fresh).mono ?_
  rintro ended ⟨driven, there⟩ ⟨-, stays, led⟩
  exact ran_conclude (quiet.stays stays).calm led

theorem leads_proceed {flow : Flow} {host : Host}
    {post : Except Halt BuildResult → Flow × Host → Prop} (quiet : host.Quiet)
    (main : ∀ there : Host, there.Quiet → there.world = host.world → there.script = host.script →
      (mainRun flow).Leads (flow, there) post) :
    (proceed flow).Leads (flow, host) post := by
  unfold proceed
  split
  · rw [leads_bind, leads_setListener]
    exact main _ ⟨quiet.calm, nofun, quiet.unhooked, quiet.faultless, quiet.untrapped,
      quiet.gentle⟩ rfl rfl
  · exact main host quiet rfl rfl

/-- A run that stops no builds fails to write its graph, has nothing to do, or goes on to its main
part; nothing has been done to any job by then. -/
theorem leads_run_of {flow : Flow} {host : Host}
    {post : Except Halt BuildResult → Flow × Host → Prop} (quiet : host.Quiet)
    (alive : flow.config.killAll = false)
    (unwritten : flow.config.graphDir.isSome → ∀ (fault : FileFault) (there : Host),
      there.world = host.world → post (.error (.error (.file fault))) (flow, there))
    (idle : flow.config.justDump ∨ flow.root.children = [] → ∀ there : Host,
      there.world = host.world → post (.ok flow.root.result) (flow, there))
    (main : ∀ there : Host, there.Quiet → there.world = host.world → there.script = host.script →
      (mainRun flow).Leads (flow, there) post) :
    (run : Step BuildResult).Leads (flow, host) post := by
  rw [run_eq, leads_bind]
  refine leads_writeGraph.mono ?_
  rintro answer ⟨flow', drawn⟩ ⟨rfl, stays, same, fails⟩
  dsimp only at stays same fails ⊢
  cases answer with
  | error halt =>
      obtain ⟨written, fault, rfl⟩ := fails halt rfl
      exact unwritten written fault drawn same
  | ok =>
      dsimp only
      rw [leads_bind, leads_node]
      dsimp only
      split
      · next dump => exact idle (.inl dump) drawn same
      · split
        · next empty =>
            rw [leads_bind, leads_log]
            exact idle (.inr (List.isEmpty_iff.mp empty)) _ same
        · rw [if_neg (by rw [alive]; exact Bool.false_ne_true)]
          exact leads_proceed (quiet.stays stays) fun there quiet' world script =>
            main there quiet' (world.trans same) (script.trans stays.script)

/-- On a quiet host a run that stops no builds leads where the relation says. -/
theorem leads_run {flow : Flow} {host : Host} (quiet : host.Quiet) (fresh : flow.root.IsFresh)
    (alive : flow.config.killAll = false) :
    (run : Step BuildResult).Leads (flow, host) fun answer state =>
      Ran flow host.script.maxTicks state.2.reads host.world answer state.1.root
        state.2.world := by
  apply leads_run_of quiet alive
  · intro written fault there same
    rw [same]
    exact .unwritten written
  · intro idle there same
    rw [same]
    exact .idle idle
  · intro there quiet' same script
    have led := leads_mainRun quiet' fresh
    rw [same, script] at led
    exact led

end Flow

end BuildFlow
