import BuildFlow.Proofs.Flow.Run
import BuildFlow.Proofs.Shuffle.Abreast
import BuildFlow.Proofs.Shuffle.Prepare
/-!
Whole runs of shuffled flows side by side: the jobs are looked up, the loops go on in step,
and both runs are told to end alike.
-/
namespace BuildFlow

open NodeAct Act

namespace Flow

variable {flow flow' : Flow} {host host' : Host} {α β : Type} {see : α → β → Prop}
  {same : Flow × Host → Flow × Host → Prop}

/-! ## Steps that tell something -/

/-- Both runs tell something, and go on where nothing has changed that they go by. -/
theorem Twins.tells (twins : Twins (flow, host) (flow', host')) {action image : Act Host Unit}
    (tells : Host.Tells action) (still : Host.Still action) (tells' : Host.Tells image)
    (still' : Host.Still image) {next : Unit → Step α} {next' : Unit → Step β}
    (second : ∀ {after after'}, host.Rests after → host'.Rests after' →
      Abreast see same ((next ()).run (flow, after)) ((next' ()).run (flow', after'))) :
    Abreast see same ((onHost action >>= next).run (flow, host))
      ((onHost image >>= next').run (flow', host')) := by
  have run_onHost : ∀ (action : Act Host Unit) (flow : Flow) (host : Host),
      (onHost action : Step Unit).run (flow, host) =
        ((action.run host).1, flow, (action.run host).2) := fun _ _ _ => rfl
  have led := And.intro (tells host twins.quiet) (still host)
  have led' := And.intro (tells' host' twins.quiet') (still' host')
  rw [run_bind, run_bind, run_onHost, run_onHost]
  unfold Leads at led led'
  generalize action.run host = ran at led
  generalize image.run host' = ran' at led'
  obtain ⟨answer, after⟩ := ran
  obtain ⟨answer', after'⟩ := ran'
  obtain ⟨⟨stays, world, fails⟩, around⟩ := led
  obtain ⟨⟨stays', world', fails'⟩, around'⟩ := led'
  cases answer with
  | error halt => exact .inl ⟨.ticks, by rw [(fails halt rfl).1]⟩
  | ok =>
      cases answer' with
      | error halt => exact .inr (.inl ⟨.ticks, by rw [(fails' halt rfl).1]⟩)
      | ok => exact second ⟨stays, world, around⟩ ⟨stays', world', around'⟩

/-- Both runs write to their logs. -/
theorem Twins.logs (twins : Twins (flow, host) (flow', host')) {level level' : Level}
    {message message' : String} {fields fields' : List (String × Json)} {next : Unit → Step α}
    {next' : Unit → Step β}
    (second : ∀ {after after'}, host.Rests after → host'.Rests after' →
      Abreast see same ((next ()).run (flow, after)) ((next' ()).run (flow', after'))) :
    Abreast see same ((log level message fields >>= next).run (flow, host))
      ((log level' message' fields' >>= next').run (flow', host')) :=
  twins.tells (Host.mild_log _ _ _).tells (Host.still_log _ _ _) (Host.mild_log _ _ _).tells
    (Host.still_log _ _ _) second

/-- Both runs write the graph, and go on if they could. -/
theorem Twins.draws (twins : Twins (flow, host) (flow', host')) {next : Unit → Step α}
    {next' : Unit → Step β}
    (kept : ∀ {after after'}, host.Rests after → host'.Rests after' →
      same (flow, after) (flow', after'))
    (second : ∀ {after after'}, host.Rests after → host'.Rests after' →
      Abreast see same ((next ()).run (flow, after)) ((next' ()).run (flow', after'))) :
    Abreast see same ((writeGraph >>= next).run (flow, host))
      ((writeGraph >>= next').run (flow', host')) := by
  obtain ⟨ended, after, after', here, there, rests, rests'⟩ := twins.writes
  rw [run_bind, run_bind, here, there]
  cases ended with
  | error halt => exact .inr (.inr ⟨.halted halt, kept rests rests'⟩)
  | ok => exact second rests rests'

/-- Both runs try to write the graph, and go on anyway. -/
theorem Twins.triesToDraw (twins : Twins (flow, host) (flow', host'))
    {next : Except Halt Unit → Step α} {next' : Except Halt Unit → Step β}
    (second : ∀ {ended after after'}, host.Rests after → host'.Rests after' →
      Abreast see same ((next ended).run (flow, after)) ((next' ended).run (flow', after'))) :
    Abreast see same ((outcome writeGraph >>= next).run (flow, host))
      ((outcome writeGraph >>= next').run (flow', host')) := by
  obtain ⟨ended, after, after', here, there, rests, rests'⟩ := twins.writes
  rw [run_bind, run_bind, run_outcome, run_outcome, here, there]
  exact second rests rests'

/-! ## Preparing -/

/-- The jobs of both trees are the same, so those of the other tree are idle as well. -/
theorem Twins.idle (twins : Twins (flow, host) (flow', host'))
    (idle : ∀ name ∈ flow.root.names, ∀ job, host.runner.job? name = some job →
      (job.progress host.runner.tick).isIdle) :
    ∀ name ∈ flow'.root.names, ∀ job, host'.runner.job? name = some job →
      (job.progress host'.runner.tick).isIdle := by
  intro name named job found
  have named := twins.trees.names.mem_iff.mp named
  obtain ⟨held, present⟩ := Option.isSome_iff_exists.mp (twins.has name named)
  rw [show job.progress host'.runner.tick = _ from twins.worlds.progress named present found]
  exact idle name named held present

/-- Both runs prepare their trees, and then they stand alike before the first sweep. -/
theorem abreast_prepare (twins : Twins (flow, host) (flow', host')) (fresh : flow.root.IsFresh)
    (fresh' : flow'.root.IsFresh)
    (idle : ∀ name ∈ flow.root.names, ∀ job, host.runner.job? name = some job →
      (job.progress host.runner.tick).isIdle)
    (sweep sweep' : Sweep) :
    Abreast Eq Looping ((visitRoot (Tree.prepareFirst sweep) : Step Unit).run (flow, host))
      ((visitRoot (Tree.prepareFirst sweep') : Step Unit).run (flow', host')) := by
  have idle' := twins.idle idle
  change Abreast Eq Looping
    ((Tree.prepareFirst sweep flow.root host).1,
      { flow with root := (Tree.prepareFirst sweep flow.root host).2.1 },
      (Tree.prepareFirst sweep flow.root host).2.2)
    ((Tree.prepareFirst sweep' flow'.root host').1,
      { flow' with root := (Tree.prepareFirst sweep' flow'.root host').2.1 },
      (Tree.prepareFirst sweep' flow'.root host').2.2)
  obtain ⟨stays, prepared⟩ :=
    Tree.prepareFirst_prepared sweep flow.root fresh host twins.quiet.faultless
  obtain ⟨stays', prepared'⟩ :=
    Tree.prepareFirst_prepared sweep' flow'.root fresh' host' twins.quiet'.faultless
  have around := Tree.still_prepareFirst sweep flow.root host
  have around' := Tree.still_prepareFirst sweep' flow'.root host'
  generalize Tree.prepareFirst sweep flow.root host = ran at stays prepared around
  generalize Tree.prepareFirst sweep' flow'.root host' = ran' at stays' prepared' around'
  obtain ⟨answer, root, after⟩ := ran
  obtain ⟨answer', root', after'⟩ := ran'
  dsimp only at stays prepared around stays' prepared' around' ⊢
  -- A preparation comes through or breaks down, and a breakdown of either run settles the claim.
  rcases prepared.readies twins.has idle with ⟨rfl, ready⟩ | rfl
  · rcases prepared'.readies twins.has' idle' with ⟨rfl, ready'⟩ | rfl
    · obtain ⟨world, layout, -⟩ := prepared
      obtain ⟨world', layout', -⟩ := prepared'
      have names : root.names = flow.root.names := by rw [← layout, Tree.names_blank]
      have names' : root'.names = flow'.root.names := by rw [← layout', Tree.names_blank]
      have has : after.world.Has root.names := names ▸ twins.has.grows world.grows.runner
      have has' : after'.world.Has root'.names := names' ▸ twins.has'.grows world'.grows.runner
      have same := world.agree twins.has
      have same' := (world'.agree twins.has').mono fun name named =>
        twins.trees.names.mem_iff.mpr named
      refine .inr (.inr ⟨.passed rfl, ?_, Tree.sound_of_ready ready, Tree.sound_of_ready ready'⟩)
      exact {
        flow := congrArg (fun flow : Flow => { flow with root := root' }) twins.flow
        trees := Tree.shuffled_of_ready ready ready' has has' (layout ▸ layout' ▸ twins.trees)
        distinct := names ▸ twins.distinct
        untimed := Tree.untimed_of_layout (layout.trans fresh.symm) twins.untimed
        has
        worlds := names ▸ same.symm.trans (twins.worlds.trans same')
        around := around'.trans (twins.around.trans around.symm)
        script := stays'.script.trans (twins.script.trans stays.script.symm)
        quiet := twins.quiet.stays stays
        quiet' := twins.quiet'.stays stays' }
    · exact .inr (.inl ⟨_, rfl⟩)
  · exact .inl ⟨_, rfl⟩

/-! ## From the first look at the jobs to the final status -/

/-- Both runs are about to sweep for the first time. -/
theorem Looping.started (looping : Looping (flow, host) (flow', host')) (start : Instant) :
    Looping ({ flow with start, lastGraph := start }, host)
      ({ flow' with start, lastGraph := start }, host') :=
  { looping with
    flow := congrArg (fun flow : Flow => { flow with start, lastGraph := start }) looping.flow }

theorem abreast_modifyNode {change : Flow → Flow} {next : Unit → Step α} {next' : Unit → Step β}
    (second : Abreast see same ((next ()).run (change flow, host))
      ((next' ()).run (change flow', host'))) :
    Abreast see same ((modifyNode change >>= next).run (flow, host))
      ((modifyNode change >>= next').run (flow', host')) :=
  second

/-- Both runs wait for the same time between two sweeps. -/
theorem abreast_setUp (twins : Twins (flow, host) (flow', host')) (fresh : flow.root.IsFresh)
    (fresh' : flow'.root.IsFresh)
    (idle : ∀ name ∈ flow.root.names, ∀ job, host.runner.job? name = some job →
      (job.progress host.runner.tick).isIdle) :
    Abreast Eq Looping ((setUp : Step Duration).run (flow, host))
      ((setUp : Step Duration).run (flow', host')) := by
  unfold setUp
  refine twins.logs fun rests rests' => ?_
  have idle := rests.runner.symm ▸ idle
  replace twins := twins.rests rests rests'
  refine twins.tells Host.mild_poll.tells Host.still_poll Host.mild_poll.tells Host.still_poll
    fun rests rests' => ?_
  replace idle := rests.runner.symm ▸ idle
  replace twins := twins.rests rests rests'
  apply abreast_host_bind
  apply abreast_node_bind
  -- From here on the trees are ready, which is what the loops start from.
  refine (abreast_prepare twins fresh fresh' idle _ _).bind ?_ fun _ _ looping => looping
  rintro - - ⟨flow, host⟩ ⟨flow', host'⟩ - looping
  apply abreast_host_bind
  refine looping.toTwins.logs fun rests rests' => ?_
  replace looping := looping.rests rests rests'
  apply abreast_node_bind
  refine looping.toTwins.tells (Host.mild_define _ _).tells (Tree.still_define _ _)
    (Host.mild_define _ _).tells (Tree.still_define _ _) fun rests rests' => ?_
  replace looping := looping.rests rests rests'
  refine looping.toTwins.draws (fun rests rests' => looping.rests rests rests')
    fun {host host'} rests rests' => ?_
  replace looping := looping.rests rests rests'
  have clock : host'.clock = host.clock := (congrArg Around.clock looping.around :)
  have config := looping.config
  apply abreast_host_bind
  rw [clock]
  apply abreast_modifyNode
  replace looping := looping.started host.clock
  refine looping.toTwins.logs fun rests rests' => ?_
  replace looping := looping.rests rests rests'
  rw [config] at looping ⊢
  cases flow.config.sleepDuration? with
  | none => exact .inl ⟨_, rfl⟩
  | some sleep => exact .inr (.inr ⟨.passed rfl, looping⟩)

/-- What follows an action whose end is taken for an answer. -/
theorem abreast_outcome {γ δ : Type} {action : Step α} {image : Step β} {state other : Flow × Host}
    {next : Except Halt α → Step γ} {next' : Except Halt β → Step δ} {see' : γ → δ → Prop}
    {same' : Flow × Host → Flow × Host → Prop}
    (first : Abreast see same (action.run state) (image.run other))
    (breaks : ∀ breakdown, (action.run state).1 = .error (.broken breakdown) →
      Breaks ((next (.error (.broken breakdown))).run (action.run state).2).1)
    (breaks' : ∀ breakdown, (image.run other).1 = .error (.broken breakdown) →
      Breaks ((next' (.error (.broken breakdown))).run (image.run other).2).1)
    (second : ∀ {ended ended' after after'}, SameEnds see ended ended' → same after after' →
      Abreast see' same' ((next ended).run after) ((next' ended').run after')) :
    Abreast see' same' ((outcome action >>= next).run state)
      ((outcome image >>= next').run other) := by
  rw [run_bind, run_bind, run_outcome, run_outcome]
  rcases first with ⟨breakdown, broken⟩ | ⟨breakdown, broken⟩ | ⟨ends, alike⟩
  · have breaks := breaks breakdown broken
    rw [← broken] at breaks
    exact .inl breaks
  · have breaks := breaks' breakdown broken
    rw [← broken] at breaks
    exact .inr (.inl breaks)
  · exact second ends alike

/-- A loop that broke down leaves nothing to tell but that. -/
theorem breaks_tell (quiet : host.Quiet) (breakdown : Breakdown) :
    Breaks ((tell (.error (.broken breakdown))).run (flow, host)).1 := by
  change (tell (.error (.broken breakdown))).Leads (flow, host) fun answer _ => Breaks answer
  unfold tell
  rw [leads_bind, leads_log]
  dsimp only
  rw [leads_bind, leads_node]
  dsimp only
  rw [leads_bind, leads_onHost]
  have logged := Host.stays_log host .info "--- Final status ---" []
  refine (Host.tells_finalStatus flow.root _ (quiet.stays logged)).mono ?_
  rintro answer told ⟨-, -, fails⟩
  cases answer with
  | error halt => exact ⟨_, congrArg Except.error (fails halt rfl).1⟩
  | ok =>
      dsimp only
      rw [leads_bind, leads_outcome]
      exact leads_writeGraph.mono fun _ _ _ => ⟨breakdown, rfl⟩

theorem Twins.result (twins : Twins (flow, host) (flow', host')) :
    flow.result = flow'.result :=
  (twins.trees.reads (f := Standing.result) fun _ => rfl).symm

/-- Both runs tell of their loops. -/
theorem abreast_tell (twins : Twins (flow, host) (flow', host')) {looped looped' : Except Halt Unit}
    (ends : SameEnds Eq looped looped') :
    Abreast Eq Twins ((tell looped).run (flow, host)) ((tell looped').run (flow', host')) := by
  unfold tell
  refine twins.logs fun rests rests' => ?_
  replace twins := twins.rests rests rests'
  apply abreast_node_bind
  refine twins.tells (Host.tells_finalStatus _) (Tree.still_finalStatus _)
    (Host.tells_finalStatus _) (Tree.still_finalStatus _) fun rests rests' => ?_
  replace twins := twins.rests rests rests'
  refine twins.triesToDraw fun {written after after'} rests rests' => ?_
  replace twins := twins.rests rests rests'
  cases ends with
  | failed aborted => exact .inr (.inr ⟨.failed aborted, twins⟩)
  | halted halt => exact .inr (.inr ⟨.halted halt, twins⟩)
  | passed =>
      cases written with
      | error halt => exact .inr (.inr ⟨.halted halt, twins⟩)
      | ok =>
          exact .inr (.inr ⟨.passed twins.result, twins⟩)

theorem abreast_drive (twins : Twins (flow, host) (flow', host')) (fresh : flow.root.IsFresh)
    (fresh' : flow'.root.IsFresh)
    (idle : ∀ name ∈ flow.root.names, ∀ job, host.runner.job? name = some job →
      (job.progress host.runner.tick).isIdle) :
    Abreast Eq Twins ((drive : Step BuildResult).run (flow, host))
      ((drive : Step BuildResult).run (flow', host')) := by
  rw [drive_eq]
  refine (abreast_setUp twins fresh fresh' idle).bind ?_ fun _ _ looping => looping.toTwins
  rintro sleep - ⟨flow, host⟩ ⟨flow', host'⟩ rfl looping
  have rounds : roundsLeft host' = roundsLeft host := by
    have ticks : host'.runner.tick = host.runner.tick := looping.worlds.tick
    unfold roundsLeft
    rw [looping.script, ticks]
  -- A loop that broke down has left a quiet host behind.
  have breaks : ∀ {flow : Flow} {host : Host}, host.Quiet → ∀ breakdown,
      Breaks ((tell (.error (.broken breakdown))).run
        ((pollLoop sleep (roundsLeft host)).run (flow, host)).2).1 := by
    intro flow host quiet breakdown
    have led := @leads_pollLoop sleep (roundsLeft host) flow host quiet
      (Nat.succ_le_succ (Nat.zero_le _)) (by unfold roundsLeft; omega)
    exact breaks_tell (quiet.stays led.2.1) breakdown
  apply abreast_host_bind
  dsimp only
  rw [rounds]
  refine abreast_outcome (abreast_pollLoop sleep _ looping)
    (fun breakdown _ => breaks looping.quiet breakdown)
    (fun breakdown _ => rounds ▸ breaks looping.quiet' breakdown) fun ends twins => ?_
  exact abreast_tell twins ends

/-! ## Whole runs -/

theorem Twins.listening (twins : Twins (flow, host) (flow', host')) {listener : Listener}
    (unsignalled : listener ≠ .signalled) :
    Twins (flow, { host with listener }) (flow', { host' with listener }) :=
  { twins with
    quiet := { twins.quiet with unsignalled }
    quiet' := { twins.quiet' with unsignalled } }

theorem abreast_setListener (listener : Listener) {next : Unit → Step α} {next' : Unit → Step β}
    (second : Abreast see same ((next ()).run (flow, { host with listener }))
      ((next' ()).run (flow', { host' with listener }))) :
    Abreast see same ((setListener listener >>= next).run (flow, host))
      ((setListener listener >>= next').run (flow', host')) :=
  second

theorem abreast_conclude {start start' : Flow} (config : start'.config = start.config)
    (twins : Twins (flow, host) (flow', host')) {ended ended' : Except Halt BuildResult}
    (ends : SameEnds Eq ended ended') :
    Abreast Eq Twins ((conclude start ended).run (flow, host))
      ((conclude start' ended').run (flow', host')) := by
  unfold conclude
  apply abreast_setListener
  replace twins := twins.listening (show Listener.off ≠ .signalled from nofun)
  refine twins.logs fun {host host'} rests rests' => ?_
  replace twins := twins.rests rests rests'
  cases ends with
  | failed aborted =>
      refine twins.logs fun rests rests' => ?_
      exact .inr (.inr ⟨.failed aborted, twins.rests rests rests'⟩)
  | halted halt =>
      cases halt with
      | broken breakdown => exact .inl ⟨breakdown, rfl⟩
      | error error =>
          refine twins.logs fun rests rests' => ?_
          exact .inr (.inr ⟨.halted _, twins.rests rests rests'⟩)
  | @passed result _ same =>
      subst same
      apply abreast_host_bind
      -- No kill was requested in either run, so only the result decides.
      have raises : start'.mustRaise host' result = start.mustRaise host result := by
        unfold mustRaise
        rw [config, twins.quiet.calm, twins.quiet'.calm]
      dsimp only
      rw [raises]
      apply abreast_ite
      · exact fun _ => .inr (.inr ⟨.halted _, twins⟩)
      · exact fun _ => .inr (.inr ⟨.passed rfl, twins⟩)

theorem abreast_mainRun (twins : Twins (flow, host) (flow', host')) (fresh : flow.root.IsFresh)
    (fresh' : flow'.root.IsFresh)
    (idle : ∀ name ∈ flow.root.names, ∀ job, host.runner.job? name = some job →
      (job.progress host.runner.tick).isIdle) :
    Abreast Eq Twins ((mainRun flow).run (flow, host)) ((mainRun flow').run (flow', host')) := by
  rw [mainRun_eq, mainRun_eq]
  refine abreast_outcome (abreast_drive twins fresh fresh' idle) (fun breakdown _ => ⟨breakdown, rfl⟩)
    (fun breakdown _ => ⟨breakdown, rfl⟩) fun ends ended => ?_
  exact abreast_conclude twins.config ended ends

theorem abreast_proceed (twins : Twins (flow, host) (flow', host')) (fresh : flow.root.IsFresh)
    (fresh' : flow'.root.IsFresh)
    (idle : ∀ name ∈ flow.root.names, ∀ job, host.runner.job? name = some job →
      (job.progress host.runner.tick).isIdle) :
    Abreast Eq Twins ((proceed flow).run (flow, host)) ((proceed flow').run (flow', host')) := by
  unfold proceed
  rw [twins.config]
  apply abreast_ite
  · intro _
    apply abreast_setListener
    exact abreast_mainRun (twins.listening nofun) fresh fresh' idle
  · exact fun _ => abreast_mainRun twins fresh fresh' idle

/-- Runs of flows whose trees are shuffled end alike. -/
theorem abreast_run (twins : Twins (flow, host) (flow', host')) (fresh : flow.root.IsFresh)
    (fresh' : flow'.root.IsFresh)
    (idle : ∀ name ∈ flow.root.names, ∀ job, host.runner.job? name = some job →
      (job.progress host.runner.tick).isIdle)
    (alive : flow.config.killAll = false) :
    Abreast Eq Twins ((run : Step BuildResult).run (flow, host))
      ((run : Step BuildResult).run (flow', host')) := by
  rw [run_eq]
  refine twins.draws (fun rests rests' => twins.rests rests rests') fun {host host'} rests rests' => ?_
  replace idle := rests.runner.symm ▸ idle
  replace twins := twins.rests rests rests'
  apply abreast_node_bind
  dsimp only
  rw [twins.config, twins.trees.isEmpty_children]
  apply abreast_ite
  · exact fun _ => .inr (.inr ⟨.passed twins.result, twins⟩)
  · intro _
    apply abreast_ite
    · intro _
      refine twins.logs fun rests rests' => ?_
      exact .inr (.inr ⟨.passed twins.result, twins.rests rests rests'⟩)
    · intro _
      apply abreast_ite
      · exact fun stops => absurd stops (by simp [alive])
      · exact fun _ => abreast_proceed twins fresh fresh' idle

end Flow

end BuildFlow
