import BuildFlow.Proofs.Shuffle.Rounds
import BuildFlow.Proofs.Shuffle.Sweep
import BuildFlow.Proofs.Tree.Overdraw
/-!
Two runs side by side. Unless one of them breaks down, they end alike, and what they leave
behind differs only in the order of the children of parallel groups.
-/
namespace BuildFlow

open Act NodeAct

/-! ## Actions side by side -/

section

variable {α β γ δ σ τ : Type}

/-- The action broke down. -/
def Breaks (answer : Except Halt α) : Prop := ∃ breakdown, answer = .error (.broken breakdown)

/-- Both actions passed, or both were halted. The texts of failures name the children in
their order, so failures only have to be alike in whether an abort is behind them. -/
inductive SameEnds (see : α → β → Prop) : Except Halt α → Except Halt β → Prop
  | passed {value : α} {image : β} (seen : see value image) : SameEnds see (.ok value) (.ok image)
  | failed {failure failure' : JobFailure} (aborted : failure'.isAborted = failure.isAborted) :
      SameEnds see (.error (.error (.failed failure))) (.error (.error (.failed failure')))
  | halted (halt : Halt) : SameEnds see (.error halt) (.error halt)

theorem SameEnds.refl (answer : Except Halt α) : SameEnds Eq answer answer := by
  cases answer with
  | ok value => exact .passed rfl
  | error halt => exact .halted halt

/-- Two actions end alike, in states that are alike, unless one of them breaks down. -/
def Abreast (see : α → β → Prop) (same : σ → τ → Prop) (ran : Except Halt α × σ)
    (ran' : Except Halt β × τ) : Prop :=
  Breaks ran.1 ∨ Breaks ran'.1 ∨ SameEnds see ran.1 ran'.1 ∧ same ran.2 ran'.2

variable {see : α → β → Prop} {see' : γ → δ → Prop} {same same' : σ → τ → Prop}
  {state : σ} {other : τ}

/-- Both sides take the same branch. -/
theorem abreast_ite {condition : Prop} [Decidable condition] {first second : Act σ α}
    {first' second' : Act τ β}
    (holds : condition → Abreast see same (first.run state) (first'.run other))
    (fails : ¬ condition → Abreast see same (second.run state) (second'.run other)) :
    Abreast see same ((if condition then first else second).run state)
      ((if condition then first' else second').run other) := by
  split
  · next held => exact holds held
  · next failed => exact fails failed

/-- Two actions are abreast if what is known of them says so. -/
theorem abreast_of_leads {action : Act σ α} {image : Act τ β} {post : Except Halt α → σ → Prop}
    {post' : Except Halt β → τ → Prop} (led : action.Leads state post) (led' : image.Leads other post')
    (joins : ∀ answer after answer' after', post answer after → post' answer' after' →
      Abreast see same (answer, after) (answer', after')) :
    Abreast see same (action.run state) (image.run other) :=
  joins _ _ _ _ led led'

theorem Abreast.bind {action : Act σ α} {image : Act τ β} {next : α → Act σ γ} {next' : β → Act τ δ}
    (first : Abreast see same (action.run state) (image.run other))
    (second : ∀ value value' after after', see value value' → same after after' →
      Abreast see' same' ((next value).run after) ((next' value').run after'))
    (keeps : ∀ after after', same after after' → same' after after') :
    Abreast see' same' ((action >>= next).run state) ((image >>= next').run other) := by
  rw [run_bind, run_bind]
  generalize action.run state = ran at first
  generalize image.run other = ran' at first
  obtain ⟨answer, after⟩ := ran
  obtain ⟨answer', after'⟩ := ran'
  rcases first with ⟨breakdown, broken⟩ | ⟨breakdown, broken⟩ | ⟨ends, alike⟩
  · dsimp only at broken
    subst broken
    exact .inl ⟨breakdown, rfl⟩
  · dsimp only at broken
    subst broken
    exact .inr (.inl ⟨breakdown, rfl⟩)
  · dsimp only at ends alike
    cases ends with
    | passed seen => exact second _ _ _ _ seen alike
    | failed aborted => exact .inr (.inr ⟨.failed aborted, keeps _ _ alike⟩)
    | halted halt => exact .inr (.inr ⟨.halted halt, keeps _ _ alike⟩)

end

theorem abreast_host_bind {ν μ α β : Type} {see : α → β → Prop}
    {same : ν × Host → μ × Host → Prop} {next : Host → NodeAct ν α} {next' : Host → NodeAct μ β}
    {state : ν × Host} {other : μ × Host}
    (second : Abreast see same ((next state.2).run state) ((next' other.2).run other)) :
    Abreast see same ((host >>= next).run state) ((host >>= next').run other) :=
  second

theorem abreast_node_bind {ν μ α β : Type} {see : α → β → Prop}
    {same : ν × Host → μ × Host → Prop} {next : ν → NodeAct ν α} {next' : μ → NodeAct μ β}
    {state : ν × Host} {other : μ × Host}
    (second : Abreast see same ((next state.1).run state) ((next' other.1).run other)) :
    Abreast see same ((node >>= next).run state) ((node >>= next').run other) :=
  second

theorem abreast_onHost {ν μ α β : Type} {see : α → β → Prop} {same : ν × Host → μ × Host → Prop}
    {action : Act Host α} {image : Act Host β} {post : Except Halt α → Host → Prop}
    {post' : Except Halt β → Host → Prop} {state : ν × Host} {other : μ × Host}
    (led : action.Leads state.2 post) (led' : image.Leads other.2 post')
    (joins : ∀ answer after answer' after', post answer after → post' answer' after' →
      Abreast see same (answer, state.1, after) (answer', other.1, after')) :
    Abreast see same ((onHost action).run state) ((onHost image).run other) :=
  joins _ _ _ _ led led'

/-! ## Runs side by side -/

namespace Host

/-- Nothing has changed that a run goes by. -/
structure Rests (before after : Host) : Prop where
  stays : Stays before after
  world : after.world = before.world
  around : after.around = before.around

theorem Rests.runner {before after : Host} (rests : Rests before after) :
    after.runner = before.runner :=
  congrArg World.runner rests.world

end Host

/-- The group of the node has no time limit. -/
def Tree.Untimed : Tree → Prop
  | .task _ => True
  | .branch group _ => ¬ 0 < group.timeout

theorem Tree.untimed_blank (tree : Tree) : tree.blank.Untimed ↔ tree.Untimed := by
  cases tree <;> exact Iff.rfl

theorem Tree.untimed_of_layout {tree next : Tree} (layout : next.blank = tree.blank)
    (untimed : tree.Every Untimed) : next.Every Untimed := by
  have declared : tree.blank.Every Untimed :=
    every_blank.mpr (untimed.mono fun node => (untimed_blank node).mpr)
  rw [← layout] at declared
  exact (every_blank.mp declared).mono fun node => (untimed_blank node).mp

theorem Tree.Shuffled.untimed {tree tree' : Tree} (shuffled : tree.Shuffled tree')
    (untimed : tree.Every Untimed) : tree'.Every Untimed := by
  intro node' inside
  obtain ⟨node, found, alike⟩ := shuffled.nodes inside
  have untimed := untimed node found
  cases alike with
  | task => trivial
  | @branch group group' _ _ _ same =>
      have timeout : group'.timeout = group.timeout := (congrArg Group.timeout same :)
      change ¬ 0 < group'.timeout
      rw [timeout]
      exact untimed

/-- On a sound tree without time limits, a sweep over jobs that exist answers its parent or
breaks down. -/
theorem Tree.Sweeps.answersOrBreaks {now : Instant} {tree next : Tree} {world after : World}
    {answer : Except Halt Unit} (sweeps : Sweeps now tree world answer next after)
    (unfinished : tree.standing.isFinished = false) (sound : tree.Sound world.runner)
    (untimed : tree.Every Untimed) (has : world.Has tree.names) : Answered answer ∨ Breaks answer := by
  cases answer with
  | ok => exact .inl .ok
  | error halt =>
      cases sweeps.interrupts unfinished sound with
      | failed failure => exact .inl (.failed failure)
      | uncounted => exact .inr ⟨_, rfl⟩
      | overrun => exact .inr ⟨_, rfl⟩
      | unknown named missing =>
          rw [names_of_layout sweeps.blank] at named
          have found := has.grows sweeps.grows.runner _ named
          rw [missing] at found
          cases found
      | overdue inside timed => exact absurd timed (untimed_of_layout sweeps.blank untimed _ inside)

theorem World.Agree.next {names : List String} {world other : World} (agree : Agree names world other)
    (has : world.Has names) : Agree names world.next other.next := by
  refine ⟨?_, fun name named => ?_⟩
  · exact (Runner.tick_next _).trans ((congrArg (· + 1) agree.tick).trans (Runner.tick_next _).symm)
  · exact (Runner.plain?_next (agree.has has name named)).trans
      ((agree.jobs name named).trans (Runner.plain?_next (has name named)).symm)

namespace Flow

/-- Two runs that stand alike. -/
structure Twins (state state' : Flow × Host) : Prop where
  flow : state'.1 = { state.1 with root := state'.1.root }
  trees : state.1.root.Shuffled state'.1.root
  distinct : state.1.root.names.Nodup
  untimed : state.1.root.Every Tree.Untimed
  has : state.2.world.Has state.1.root.names
  worlds : World.Agree state.1.root.names state.2.world state'.2.world
  around : state'.2.around = state.2.around
  script : state'.2.script = state.2.script
  quiet : state.2.Quiet
  quiet' : state'.2.Quiet

variable {flow flow' : Flow} {host host' after after' : Host}

/-- Both runs go on to hosts on which the jobs are alike again. -/
theorem Twins.hosts (twins : Twins (flow, host) (flow', host')) (stays : host.Stays after)
    (stays' : host'.Stays after') (grows : host.runner.Grows after.runner)
    (worlds : World.Agree flow.root.names after.world after'.world)
    (around : after'.around = after.around) : Twins (flow, after) (flow', after') where
  flow := twins.flow
  trees := twins.trees
  distinct := twins.distinct
  untimed := twins.untimed
  has := twins.has.grows grows
  worlds := worlds
  around := around
  script := stays'.script.trans (twins.script.trans stays.script.symm)
  quiet := twins.quiet.stays stays
  quiet' := twins.quiet'.stays stays'

theorem Twins.rests (twins : Twins (flow, host) (flow', host')) (rests : host.Rests after)
    (rests' : host'.Rests after') : Twins (flow, after) (flow', after') := by
  apply twins.hosts rests.stays rests'.stays
  · rw [show after.runner = host.runner from congrArg World.runner rests.world]
    exact .refl _
  · rw [rests.world, rests'.world]
    exact twins.worlds
  · exact rests'.around.trans (twins.around.trans rests.around.symm)

theorem Twins.has' (twins : Twins (flow, host) (flow', host')) : host'.world.Has flow'.root.names := by
  intro name named
  exact twins.worlds.has twins.has name (twins.trees.names.mem_iff.mp named)

theorem Twins.config (twins : Twins (flow, host) (flow', host')) : flow'.config = flow.config :=
  (congrArg Flow.config twins.flow :)

theorem Twins.place (twins : Twins (flow, host) (flow', host')) :
    host'.graph.place = host.graph.place :=
  (congrArg Around.place twins.around :)

/-! ## The graph -/

theorem ends_writeGraph (flow : Flow) (host : Host) :
    (writeGraph : Step Unit).Leads (flow, host) fun answer state =>
      answer = (if flow.config.graphDir.isSome then host.graph.place.write else .ok ()) ∧
        state.1 = flow ∧ host.Rests state.2 := by
  have led : (writeGraph : Step Unit).Leads (flow, host) fun answer state =>
      answer = if flow.config.graphDir.isSome then host.graph.place.write else .ok () := by
    unfold writeGraph
    rw [leads_bind, leads_node]
    dsimp only
    split
    · rw [leads_onHost]
      unfold Host.writeGraph
      rw [leads_bind, leads_get]
      dsimp only
      split <;> next place => rw [place]; rfl
    · rfl
  have still : Still (writeGraph : Step Unit) :=
    still_node.bind fun _ => keeps_ite (still_onHost (Host.still_writeGraph _)) (keeps_pure _)
  obtain ⟨same, stays, world, -⟩ := @leads_writeGraph flow host
  exact ⟨led, same, stays, world, still (flow, host)⟩

/-- Both runs write the graph, or neither can. -/
theorem Twins.writes (twins : Twins (flow, host) (flow', host')) : ∃ ended after after',
    (writeGraph : Step Unit).run (flow, host) = (ended, flow, after) ∧
      (writeGraph : Step Unit).run (flow', host') = (ended, flow', after') ∧
        host.Rests after ∧ host'.Rests after' := by
  have led := ends_writeGraph flow host
  have led' := ends_writeGraph flow' host'
  unfold Leads at led led'
  generalize (writeGraph : Step Unit).run (flow, host) = ran at led
  generalize (writeGraph : Step Unit).run (flow', host') = ran' at led'
  obtain ⟨ended, _, after⟩ := ran
  obtain ⟨ended', _, after'⟩ := ran'
  obtain ⟨ends, rfl, rests⟩ := led
  obtain ⟨ends', rfl, rests'⟩ := led'
  dsimp only at ends ends'
  rw [twins.config, twins.place, ← ends] at ends'
  exact ⟨ended, after, after', rfl, by rw [ends'], rests, rests'⟩

/-! ## The loop -/

/-- Two runs that stand alike between two sweeps. -/
structure Looping (state state' : Flow × Host) : Prop extends Twins state state' where
  sound : state.1.root.Sound state.2.world.runner
  sound' : state'.1.root.Sound state'.2.world.runner

theorem Looping.hosts (looping : Looping (flow, host) (flow', host')) (stays : host.Stays after)
    (stays' : host'.Stays after') (grows : host.runner.Grows after.runner)
    (grows' : host'.runner.Grows after'.runner)
    (worlds : World.Agree flow.root.names after.world after'.world)
    (around : after'.around = after.around) : Looping (flow, after) (flow', after') :=
  ⟨looping.toTwins.hosts stays stays' grows worlds around, looping.sound.grows grows,
    looping.sound'.grows grows'⟩

theorem Looping.rests (looping : Looping (flow, host) (flow', host')) (rests : host.Rests after)
    (rests' : host'.Rests after') : Looping (flow, after) (flow', after') := by
  have grows : ∀ {host after : Host}, host.Rests after → host.runner.Grows after.runner := by
    intro host after rests
    rw [rests.runner]
    exact .refl _
  have twins := looping.toTwins.rests rests rests'
  exact looping.hosts rests.stays rests'.stays (grows rests) (grows rests') twins.worlds twins.around

/-- The graph was drawn at some time. -/
theorem Looping.drawn (looping : Looping (flow, host) (flow', host')) (lastGraph : Instant) :
    Looping ({ flow with lastGraph }, host) ({ flow' with lastGraph }, host') :=
  { looping with
    flow := congrArg (fun flow : Flow => { flow with lastGraph }) looping.flow }

theorem ends_reportGraph (flow : Flow) (host : Host) (now : Instant) :
    (reportGraph now : Step Unit).Leads (flow, host) fun answer state =>
      answer = (if flow.config.reportInterval ≤ now.secondsSince flow.lastGraph then
        if flow.config.graphDir.isSome then host.graph.place.write else .ok () else .ok ()) ∧
      (state.1 = if flow.config.reportInterval ≤ now.secondsSince flow.lastGraph then
        { flow with lastGraph := now } else flow) ∧ host.Rests state.2 := by
  unfold reportGraph
  rw [leads_bind, leads_node]
  dsimp only
  split
  · rw [leads_bind, leads_setNode]
    dsimp only
    exact ends_writeGraph _ _
  · exact ⟨rfl, rfl, .refl _, rfl, rfl⟩

theorem abreast_reportGraph (now : Instant) (looping : Looping (flow, host) (flow', host')) :
    Abreast Eq Looping ((reportGraph now : Step Unit).run (flow, host))
      ((reportGraph now : Step Unit).run (flow', host')) := by
  have interval := congrArg RunConfig.reportInterval looping.config
  have dir := congrArg RunConfig.graphDir looping.config
  have last : flow'.lastGraph = flow.lastGraph := (congrArg Flow.lastGraph looping.flow :)
  have led := ends_reportGraph flow host now
  have led' := ends_reportGraph flow' host' now
  rw [interval, dir, last, looping.place] at led'
  refine abreast_of_leads led led' ?_
  rintro - ⟨drawn, after⟩ - ⟨drawn', after'⟩ ⟨rfl, same, rests⟩ ⟨rfl, same', rests'⟩
  dsimp only at same same'
  subst same same'
  refine .inr (.inr ⟨.refl _, ?_⟩)
  dsimp only
  split
  · exact (looping.rests rests rests').drawn now
  · exact looping.rests rests rests'

/-- A tick has passed for both runs. -/
theorem Looping.ticked (looping : Looping (flow, host) (flow', host')) (stays : host.Stays after)
    (stays' : host'.Stays after') (world : after.world = host.world.next)
    (world' : after'.world = host'.world.next)
    (around : after.around = host.around.ticked host.script (host.runner.tick + 1))
    (around' : after'.around = host'.around.ticked host'.script (host'.runner.tick + 1)) :
    Looping (flow, after) (flow', after') := by
  have runner : after.runner = host.runner.next := congrArg World.runner world
  have runner' : after'.runner = host'.runner.next := congrArg World.runner world'
  have ticks : host'.runner.tick = host.runner.tick := looping.worlds.tick
  apply looping.hosts stays stays'
  · rw [runner]
    exact Runner.grows_next _
  · rw [runner']
    exact Runner.grows_next _
  · rw [world, world']
    exact looping.worlds.next looping.has
  · rw [around, around', looping.around, looping.script, ticks]

/-- Time passes in the same way for both runs. -/
theorem abreast_quickPoll (looping : Looping (flow, host) (flow', host')) :
    Abreast Eq (fun state state' => state.1 = flow ∧ Looping state state')
      ((onHost Host.quickPoll : Step Unit).run (flow, host))
      ((onHost Host.quickPoll : Step Unit).run (flow', host')) := by
  have led : ∀ {host : Host}, host.Quiet → Leads Host.quickPoll host fun answer after =>
      (Host.Stays host after ∧ Host.Ticked host answer after) ∧
        (answer = .error (.broken .ticks) ∨
          after.around = host.around.ticked host.script (host.runner.tick + 1)) :=
    fun quiet => ⟨Host.leads_quickPoll quiet, Host.around_quickPoll quiet⟩
  have ticks : host'.runner.tick = host.runner.tick := looping.worlds.tick
  have limit : host'.script.maxTicks = host.script.maxTicks := congrArg Script.maxTicks looping.script
  refine abreast_onHost (led looping.quiet) (led looping.quiet') ?_
  rintro answer after answer' after' ⟨⟨stays, ticked⟩, around⟩ ⟨⟨stays', ticked'⟩, around'⟩
  dsimp only at ticked ticked'
  -- Both runs have the same number of ticks left, so they are refused the same tick.
  cases ticked with
  | overrun => exact .inl ⟨_, rfl⟩
  | refused world beyond =>
      cases ticked' with
      | overrun => exact .inr (.inl ⟨_, rfl⟩)
      | passed world' _ within => omega
      | refused world' =>
          have looping := looping.ticked stays stays' world world' (around.resolve_left nofun)
            (around'.resolve_left nofun)
          exact .inr (.inr ⟨.halted _, rfl, looping⟩)
  | passed world _ within =>
      cases ticked' with
      | overrun => exact .inr (.inl ⟨_, rfl⟩)
      | refused world' beyond => omega
      | passed world' =>
          have looping := looping.ticked stays stays' world world' (around.resolve_left nofun)
            (around'.resolve_left nofun)
          exact .inr (.inr ⟨.passed rfl, rfl, looping⟩)

theorem abreast_sleep (duration : Duration) (looping : Looping (flow, host) (flow', host')) :
    Abreast Eq Looping ((onHost (Host.sleep duration) : Step Unit).run (flow, host))
      ((onHost (Host.sleep duration) : Step Unit).run (flow', host')) := by
  have led : ∀ {host : Host}, host.Quiet → Leads (Host.sleep duration) host fun answer after =>
      (answer = .ok () ∧ Host.Stays host after ∧ after.world = host.world) ∧
        after.around = host.around.slept duration :=
    fun quiet =>
      ⟨Host.leads_sleep quiet.unsignalled duration, Host.around_sleep quiet.unsignalled duration⟩
  refine abreast_onHost (led looping.quiet) (led looping.quiet') ?_
  rintro - after - after' ⟨⟨rfl, stays, world⟩, around⟩ ⟨⟨rfl, stays', world'⟩, around'⟩
  refine .inr (.inr ⟨.refl _, ?_⟩)
  have runner : after.runner = host.runner := congrArg World.runner world
  have runner' : after'.runner = host'.runner := congrArg World.runner world'
  apply looping.hosts stays stays'
  · rw [runner]
    exact .refl _
  · rw [runner']
    exact .refl _
  · rw [world, world']
    exact looping.worlds
  · rw [around, around', looping.around]

theorem swept_checkOnce (flow : Flow) (quiet : host.Quiet) (now : Instant) :
    (checkOnce now : Step (Except Halt Unit)).Leads (flow, host) fun answer state =>
      (∃ ended, answer = .ok ended ∧ Host.Stays host state.2 ∧
        Tree.Sweeps now flow.root host.world ended state.1.root state.2.world) ∧
      state.1 = { flow with root := state.1.root } ∧ state.2.around = host.around := by
  have still : Still (checkOnce now) := by
    refine (still_onHost fun _ => rfl).bind fun _ => still_node.bind fun _ => ?_
    refine Keeps.bind ?_ fun _ => (still_onHost fun _ => rfl).bind fun _ => keeps_pure _
    refine ((still_node.bind fun _ => ?_).bind fun _ => keeps_pure _).catching fun _ => keeps_pure _
    exact still_onPart (Tree.still_check _ _) _ _
  have apart : (checkOnce now : Step (Except Halt Unit)).Leads (flow, host) fun _ state =>
      state.1 = { flow with root := state.1.root } := leads_checkOnce_of rfl
  obtain ⟨ended, passed, -, stays, sweeps⟩ := @leads_checkOnce flow host quiet now
  exact ⟨⟨ended, passed, stays, sweeps⟩, apart, still (flow, host)⟩

variable {same : Flow × Host → Flow × Host → Prop}

/-- Both runs have swept over their trees. -/
theorem Looping.swept (looping : Looping (flow, host) (flow', host')) {now : Instant}
    {ended ended' : Except Halt Unit} {swept swept' : Flow} (stays : host.Stays after)
    (stays' : host'.Stays after')
    (sweeps : Tree.Sweeps now flow.root host.world ended swept.root after.world)
    (sweeps' : Tree.Sweeps now flow'.root host'.world ended' swept'.root after'.world)
    (unfinished : flow.root.standing.isFinished = false) (answered : Answered ended)
    (answered' : Answered ended') (apart : swept = { flow with root := swept.root })
    (apart' : swept' = { flow' with root := swept'.root }) (around : after.around = host.around)
    (around' : after'.around = host'.around) :
    SameAnswers ended ended' ∧ Looping (swept, after) (swept', after') := by
  have unfinished' : flow'.root.standing.isFinished = false :=
    (looping.trees.reads (f := Standing.isFinished) fun _ => rfl).trans unfinished
  obtain ⟨answers, trees, worlds⟩ := sweeps.twins looping.distinct answered sweeps' answered'
    looping.trees looping.worlds
  have names := Tree.names_of_layout sweeps.blank
  -- A sweep changes the trees only, so the flows still differ in nothing else.
  have flows := calc
    swept' = { flow' with root := swept'.root } := apart'
    _ = { flow with root := swept'.root } :=
      congrArg (fun flow : Flow => { flow with root := swept'.root }) looping.flow
    _ = { swept with root := swept'.root } :=
      (congrArg (fun flow : Flow => { flow with root := swept'.root }) apart).symm
  have twins : Twins (swept, after) (swept', after') := {
    flow := flows
    trees := trees
    distinct := names ▸ looping.distinct
    untimed := Tree.untimed_of_layout sweeps.blank looping.untimed
    has := names ▸ looping.has.grows sweeps.grows.runner
    worlds := names ▸ worlds
    around := around'.trans (looping.around.trans around.symm)
    script := stays'.script.trans (looping.script.trans stays.script.symm)
    quiet := looping.quiet.stays stays
    quiet' := looping.quiet'.stays stays' }
  exact ⟨answers, twins, (sweeps.sound answered unfinished looping.sound).sound,
    (sweeps'.sound answered' unfinished' looping.sound').sound⟩

/-- One sweep. A run that breaks down in it has nothing more to answer. -/
theorem abreast_checkOnce {α : Type} {next : Except Halt Unit → Step α} (now : Instant)
    (looping : Looping (flow, host) (flow', host')) (unsettled : flow.root.checking = .mustCheck)
    (second : ∀ ended ended' state state', SameAnswers ended ended' → Looping state state' →
      Abreast Eq same ((next ended).run state) ((next ended').run state'))
    (breaks : ∀ breakdown state, Breaks ((next (.error (.broken breakdown))).run state).1) :
    Abreast Eq same ((checkOnce now >>= next).run (flow, host))
      ((checkOnce now >>= next).run (flow', host')) := by
  have unfinished : flow.root.standing.isFinished = false := Standing.unfinished unsettled
  have unfinished' : flow'.root.standing.isFinished = false :=
    (looping.trees.reads (f := Standing.isFinished) fun _ => rfl).trans unfinished
  have led := swept_checkOnce flow looping.quiet now
  have led' := swept_checkOnce flow' looping.quiet' now
  rw [run_bind, run_bind]
  unfold Leads at led led'
  generalize (checkOnce now : Step (Except Halt Unit)).run (flow, host) = ran at led
  generalize (checkOnce now : Step (Except Halt Unit)).run (flow', host') = ran' at led'
  obtain ⟨answer, swept, after⟩ := ran
  obtain ⟨answer', swept', after'⟩ := ran'
  obtain ⟨⟨ended, passed, stays, sweeps⟩, apart, around⟩ := led
  obtain ⟨⟨ended', passed', stays', sweeps'⟩, apart', around'⟩ := led'
  dsimp only at passed stays sweeps apart around passed' stays' sweeps' apart' around'
  subst passed passed'
  dsimp only
  -- Each of the sweeps answers, unless its run breaks down in it.
  rcases sweeps.answersOrBreaks unfinished looping.sound looping.untimed looping.has with
    answered | ⟨breakdown, rfl⟩
  · have untimed' := looping.trees.untimed looping.untimed
    rcases sweeps'.answersOrBreaks unfinished' looping.sound' untimed' looping.has' with
      answered' | ⟨breakdown, rfl⟩
    · obtain ⟨answers, looping⟩ := looping.swept stays stays' sweeps sweeps' unfinished answered
        answered' apart apart' around around'
      exact second _ _ _ _ answers looping
    · exact .inr (.inl (breaks breakdown _))
  · exact .inl (breaks breakdown _)

theorem abreast_pause (sleep : Duration) (now : Instant)
    (looping : Looping (flow, host) (flow', host')) :
    Abreast Eq Looping ((pause sleep now).run (flow, host)) ((pause sleep now).run (flow', host')) := by
  refine (abreast_reportGraph _ looping).bind ?_ fun _ _ looping => looping
  exact fun _ _ _ _ _ looping => abreast_sleep sleep looping

/-- One round. A run that fails in its sweep leaves its loop. -/
theorem abreast_turn (sleep : Duration) (looping : Looping (flow, host) (flow', host'))
    (unsettled : flow.root.checking = .mustCheck) :
    Abreast Eq Looping ((turn sleep).run (flow, host)) ((turn sleep).run (flow', host')) := by
  unfold turn
  refine (abreast_quickPoll looping).bind ?_ fun _ _ polled => polled.2
  rintro - - ⟨_, there⟩ ⟨flow', there'⟩ - ⟨rfl, polled⟩
  have clock : there'.clock = there.clock := (congrArg Around.clock polled.around :)
  apply abreast_host_bind
  rw [clock]
  refine abreast_checkOnce _ polled unsettled ?_ fun breakdown _ => ⟨breakdown, rfl⟩
  rintro ended ended' state state' answers looping
  cases answers with
  | failed aborted => exact .inr (.inr ⟨.failed aborted, looping⟩)
  | passed => exact abreast_pause sleep _ looping

/-- Both runs sweep at the same ticks, and come out of their loops alike. -/
theorem abreast_pollLoop (sleep : Duration) (ticks : Nat)
    (looping : Looping (flow, host) (flow', host')) :
    Abreast Eq Twins ((pollLoop sleep ticks : Step Unit).run (flow, host))
      ((pollLoop sleep ticks : Step Unit).run (flow', host')) := by
  induction ticks generalizing flow flow' host host' with
  | zero => exact .inr (.inr ⟨.halted _, looping.toTwins⟩)
  | succ ticks ih =>
      have checking : flow'.root.checking = flow.root.checking :=
        looping.trees.reads (f := Standing.checking) fun _ => rfl
      rw [pollLoop_succ]
      -- Neither run is asked to kill, and both leave the loop when their roots have settled.
      apply abreast_host_bind
      rw [looping.quiet.unrequested, looping.quiet'.unrequested, if_neg Bool.false_ne_true]
      apply abreast_node_bind
      rw [checking]
      by_cases settled : flow.root.checking ≠ .mustCheck
      · rw [if_pos settled]
        exact .inr (.inr ⟨.passed rfl, looping.toTwins⟩)
      · rw [if_neg settled]
        refine (abreast_turn sleep looping (Decidable.not_not.mp settled)).bind ?_
          fun _ _ looping => looping.toTwins
        exact fun _ _ _ _ _ looping => ih looping

end Flow

end BuildFlow
