import BuildFlow.Proofs.Flow.Ending
import BuildFlow.Proofs.Flow.Start
import BuildFlow.Proofs.Tree.Smooth
/-!
Runs in which no job fails. Such a run ends with success, it starts one build for
each checked invocation and at most one for any other, and the children of a
serial group build one after the other.
-/
namespace BuildFlow

variable {base : String → List Build}

/-! ## Before the first sweep -/

/-- An invocation that is ready waits for its first build. -/
theorem Task.Ready.steady {runner : Runner} {task : Task} (ready : task.Ready runner)
    (serves : runner.Serves (base task.name) task.name)
    (unbuilt : runner.buildsOf task.name = base task.name) :
    task.Steady (base task.name) runner := by
  obtain ⟨⟨resolved, oldBuild, same⟩, -⟩ := ready
  refine ⟨serves, .waiting ?_ ?_ ?_ unbuilt, ?_⟩
  · rw [same]
    rfl
  · rw [same]
    rfl
  · rw [same]
    rfl
  · rw [same]
    exact Standing.settled_prepare _ _

namespace Tree

/-- A group that has children and no timeout. -/
def Plain : Tree → Prop
  | .task _ => True
  | .branch group children => children ≠ [] ∧ ¬ 0 < group.timeout

theorem plain_blank (node : Tree) : node.blank.Plain ↔ node.Plain := by
  cases node with
  | task leaf => exact Iff.rfl
  | branch group children => simp [blank, blanks_eq, Plain, Group.blank]

/-- A tree that is ready has built nothing, and nothing in it has failed. -/
theorem smooth_of_ready {runner : Runner} {tree : Tree} (ready : tree.Every (Ready runner))
    (plain : tree.Every Plain) (distinct : tree.names.Nodup)
    (serves : ∀ name ∈ tree.names, runner.Serves (base name) name)
    (unbuilt : ∀ name ∈ tree.names, runner.buildsOf name = base name) :
    tree.Smooth base runner := by
  induction tree using childrenInduction with
  | leaf leaf =>
      have named : leaf.name ∈ (Tree.task leaf).names := List.mem_singleton_self _
      exact smooth_task.mpr ((every_task.mp ready).steady (serves _ named) (unbuilt _ named))
  | branch group children ih =>
      obtain ⟨here, below⟩ := every_branch.mp ready
      obtain ⟨⟨inhabited, untimed⟩, below'⟩ := every_branch.mp plain
      have inside : ∀ child ∈ children, ∀ name ∈ child.names,
          name ∈ (Tree.branch group children).names :=
        fun child member name named => mem_names_branch.mpr ⟨child, member, named⟩
      have same : group = group.blank.prepare false := here
      have standing : group.standing = group.blank.standing.prepare false := congrArg Group.standing same
      refine smooth_branch.mpr ⟨?_, fun child member => ?_⟩
      · constructor
        case untimed => exact untimed
        case inhabited => exact inhabited
        case apart => exact fun i j first second different => apart_of_nodup distinct different
        case hopeful =>
          rw [standing]
          exact .inl rfl
        case settled =>
          rw [standing]
          exact Standing.settled_prepare _ _
        -- The cursor of a serial group is at its first child, so nothing has been passed.
        case passed =>
          intro serial i child at' before
          have first : group.cursor = 0 := by
            rw [same]
            exact Group.cursor_prepare _ _
          have before : i < group.cursor := before
          omega
        case ahead =>
          intro serial i child at' behind name named
          exact unbuilt name (inside child (List.mem_of_getElem? at') name named)
        case ordered =>
          intro serial i j first second order at' later name named other named' build next had
          rw [unbuilt name (inside first (List.mem_of_getElem? at') name
            (checkedNames_subset named))] at had
          simp at had
      · exact ih child member (below child member) (below' child member)
          (nodup_of_child distinct member)
          (fun name named => serves name (inside child member name named))
          (fun name named => unbuilt name (inside child member name named))

theorem Prepared.smooth {requireIdle : Bool} {tree first : Tree} {world there : World}
    (prepared : tree.Prepared requireIdle world (.ok ()) first there) (plain : tree.Every Plain)
    (distinct : tree.names.Nodup)
    (serves : ∀ name ∈ tree.names, world.runner.Serves (world.runner.buildsOf name) name) :
    first.Smooth world.runner.buildsOf there.runner := by
  obtain ⟨same, layout, ready⟩ := prepared
  subst layout
  rw [names_blank] at distinct serves
  apply smooth_of_ready ready _ distinct
  · exact fun name named => (serves name named).grows same.grows.runner
  · exact fun name _ => same.builds name
  · exact (every_blank.mp plain).mono fun node => (plain_blank node).mp

end Tree

namespace Flow

/-- The builds that are waited for where nothing fails end some time. -/
theorem lively_smooth {reads : Instant → Prop} (set : ∀ now, reads now → now.isSet) :
    Lively reads fun tree world => tree.Smooth base world.runner where
  keeps read unfinished sound smooth sweep := by
    have started := smooth.grows (Runner.grows_next _) fun name _ => Runner.buildsOf_next _ name
    exact (sweep.smooth (set _ read) unfinished sound started).holds.1
  unended {_ _ after} smooth _ grows same busy := by
    have smooth := smooth.grows grows fun name _ => same name
    obtain ⟨ref, ⟨leaf, inside, followed⟩, build, found, open'⟩ := busy
    have steady : leaf.Steady (base leaf.name) after.runner := smooth _ inside
    have sure : ∀ {added : Build}, leaf.Built (base leaf.name) after.runner added → build.Known := by
      intro added built
      cases found.symm.trans (built.held steady.serves followed)
      exact built.sure.known
    refine Runner.unended_of_open found ?_ open'
    cases steady.stage with
    | waiting _ _ unbuilt => cases unbuilt.symm.trans followed
    | running _ _ built => exact sure built
    | done _ built => exact sure built

/-- A loop over a tree in which nothing fails ends well, unless no more ticks are
answered. -/
theorem Looped.smooth {limit : Nat} {reads : Instant → Prop} {tree last : Tree}
    {world after : World} {answer : Except Halt Unit}
    (looped : Looped false limit reads tree world answer last after)
    (set : ∀ now, reads now → now.isSet) (sound : tree.Sound world.runner)
    (smooth : tree.Smooth base world.runner) (answered : answer ≠ .error Host.tickLimit) :
    EndsWell after (fun _ => last.Smooth base after.runner ∧ last.Sound after.runner ∧
      last.blank = tree.blank ∧ last.checking ≠ .mustCheck) answer := by
  generalize drawn : false = dir at looped
  induction looped with
  | settled settled => exact .ok ⟨smooth, sound, rfl, settled⟩
  | again unsettled read _ sweep onward ih =>
      have unfinished := Standing.unfinished unsettled
      have started := sound.grows (Runner.grows_next _)
      have well := sweep.smooth (set _ read) unfinished started
        (smooth.grows (Runner.grows_next _) fun name _ => Runner.buildsOf_next _ name)
      have keeps := sweep.sound .ok unfinished started
      cases ih keeps.sound well.holds.1 answered with
      | ok well => exact .ok ⟨well.1, well.2.1, well.2.2.1.trans sweep.blank, well.2.2.2⟩
      | overrun overrun => exact .overrun overrun
  | broke unsettled read _ sweep =>
      have started := sound.grows (Runner.grows_next _)
      have well := sweep.smooth (set _ read) (Standing.unfinished unsettled) started
        (smooth.grows (Runner.grows_next _) fun name _ => Runner.buildsOf_next _ name)
      cases well with
      | overrun overrun => exact .overrun overrun
  | refused => exact absurd rfl answered
  | overrun overrun => exact .overrun overrun
  | unwritten written =>
      subst drawn
      cases written

end Flow

/-! ## What a run without failures has built -/

/-- The builds that a job has more than before. -/
def Runner.newBuilds (before after : Runner) (name : String) : List Build :=
  (after.buildsOf name).drop (before.buildsOf name).length

theorem Runner.newBuilds_eq {before after : Runner} {name : String} {builds : List Build}
    (had : after.buildsOf name = before.buildsOf name ++ builds) :
    before.newBuilds after name = builds := by
  unfold newBuilds
  rw [had, List.drop_left]

/-- What the earlier children of a serial group build has ended when a later one
starts a build. -/
def Tree.InOrder (before after : Runner) : Tree → Prop
  | .task _ => True
  | .branch group children => group.isSerial → ∀ (i j : Nat) (first second : Tree), i < j →
      children[i]? = some first → children[j]? = some second →
      ∀ name ∈ first.checkedNames, ∀ other ∈ second.names,
      ∀ build ∈ before.newBuilds after name, ∀ next ∈ before.newBuilds after other,
        ∃ finish, build.finishedAt after.tick = some finish ∧ finish ≤ next.enqueuedAt

/-- The jobs of a tree were run once each, in the order of the tree. -/
structure Tree.Orderly (before after : Runner) (root : Tree) : Prop where
  kept : ∀ name ∈ root.names,
    after.buildsOf name = before.buildsOf name ++ before.newBuilds after name
  once : ∀ name ∈ root.checkedNames, (before.newBuilds after name).length = 1
  atMostOnce : ∀ name ∈ root.names, (before.newBuilds after name).length ≤ 1
  inOrder : root.Every (InOrder before after)

namespace Tree

theorem exists_of_mem_names {tree : Tree} {name : String} (named : name ∈ tree.names) :
    ∃ leaf, .task leaf ∈ tree.nodes ∧ leaf.name = name := by
  induction tree using childrenInduction with
  | leaf leaf => exact ⟨leaf, List.mem_singleton_self _, (List.mem_singleton.mp named).symm⟩
  | branch group children ih =>
      obtain ⟨child, inside, named⟩ := mem_names_branch.mp named
      obtain ⟨leaf, below, same⟩ := ih child inside named
      exact ⟨leaf, List.mem_cons_of_mem _ (mem_nodesOf.mpr ⟨child, inside, below⟩), same⟩

theorem Smooth.built {runner : Runner} {tree : Tree} (smooth : tree.Smooth base runner)
    {name : String} (named : name ∈ tree.names) :
    runner.buildsOf name = base name ∨
      ∃ build, runner.buildsOf name = base name ++ [build] ∧ build.Sure runner.tick := by
  obtain ⟨leaf, member, rfl⟩ := exists_of_mem_names named
  have steady : leaf.Steady (base leaf.name) runner := smooth _ member
  cases steady.stage with
  | waiting _ _ _ builds => exact .inl builds
  | running _ _ built => exact .inr ⟨_, built.builds, built.sure⟩
  | done _ built => exact .inr ⟨_, built.builds, built.sure⟩

theorem Smooth.hopeful {runner : Runner} {tree : Tree} (smooth : tree.Smooth base runner) :
    tree.standing.result = .unknown ∨ tree.standing.result = .success := by
  have here := smooth.self
  cases tree with
  | branch group children => exact Branch.Steady.hopeful here
  | task leaf =>
      have steady : leaf.Steady (base leaf.name) runner := here
      exact steady.stage.hopeful

/-- A job has at most one new build, which lasts as long as was planned. -/
theorem Smooth.newBuilds {before after : Runner} {tree : Tree}
    (smooth : tree.Smooth before.buildsOf after) {name : String} (named : name ∈ tree.names) :
    before.newBuilds after name = [] ∧ after.buildsOf name = before.buildsOf name ∨
      ∃ build, before.newBuilds after name = [build] ∧
        after.buildsOf name = before.buildsOf name ++ [build] ∧ build.Sure after.tick := by
  rcases smooth.built named with same | ⟨build, had, sure⟩
  · exact .inl ⟨Runner.newBuilds_eq (same.trans (List.append_nil _).symm), same⟩
  · exact .inr ⟨build, Runner.newBuilds_eq had, had, sure⟩

theorem Smooth.inOrder {before after : Runner} {tree : Tree}
    (smooth : tree.Smooth before.buildsOf after) : tree.blank.InOrder before after := by
  have steady := smooth.self
  cases tree with
  | task leaf => trivial
  | branch group children =>
      have steady : Branch.Steady before.buildsOf after (group, children) := steady
      have inside : ∀ {k : Nat} {child : Tree}, children[k]? = some child →
          ∀ name ∈ child.names, name ∈ (Tree.branch group children).names := fun at' name named =>
        mem_names_branch.mpr ⟨_, List.mem_of_getElem? at', named⟩
      intro serial i j first second order at' later name named other named' build new next new'
      rw [blanks_eq, List.getElem?_map, Option.map_eq_some_iff] at at' later
      obtain ⟨first, at', rfl⟩ := at'
      obtain ⟨second, later, rfl⟩ := later
      rw [checkedNames_blank] at named
      rw [names_blank] at named'
      -- Each of the two jobs has one new build at most, and those were started in order.
      rcases smooth.newBuilds (inside at' name (checkedNames_subset named)) with
        ⟨none, -⟩ | ⟨_, one, had, sure⟩
      · rw [none] at new
        cases new
      rcases smooth.newBuilds (inside later other named') with ⟨none, -⟩ | ⟨_, one', had', sure'⟩
      · rw [none] at new'
        cases new'
      rw [one, List.mem_singleton] at new
      rw [one', List.mem_singleton] at new'
      subst new new'
      have isSerial : group.isSerial := Group.isSerial_blank group ▸ serial
      have past := steady.ordered isSerial i j first second order at' later name named other named'
        build next had had'
      refine ⟨build.endTick, ?_, past⟩
      unfold Build.finishedAt
      rw [sure.unforced]
      exact if_pos (Nat.le_trans past sure'.started)

/-- A tree that has succeeded without failures has run its jobs in order. -/
theorem Smooth.orderly {before after : Runner} {tree : Tree}
    (smooth : tree.Smooth before.buildsOf after) (sound : tree.Sound after)
    (passed : tree.standing.propagatedResult = .success) :
    tree.blank.Orderly before after := by
  -- A job of a smooth tree has built just once or not at all.
  constructor
  case kept =>
    intro name named
    rw [names_blank] at named
    rcases smooth.newBuilds named with ⟨none, same⟩ | ⟨build, one, had, -⟩
    · rw [none, same, List.append_nil]
    · rw [one, had]
  case once =>
    intro name named
    rw [checkedNames_blank] at named
    obtain ⟨build, had, -⟩ := smooth.past sound passed name named
    rw [Runner.newBuilds_eq had]
    rfl
  case atMostOnce =>
    intro name named
    rw [names_blank] at named
    rcases smooth.newBuilds named with ⟨none, -⟩ | ⟨build, one, -⟩
    · rw [none]
      exact Nat.zero_le 1
    · rw [one]
      exact Nat.le_refl 1
  case inOrder =>
    rw [every_blank]
    intro node member
    have below : node.Smooth before.buildsOf after := Every.within smooth member
    exact below.inOrder

end Tree

namespace Flow

theorem Driven.smooth {config : RunConfig} {requireIdle : Bool} {limit : Nat}
    {reads : Instant → Prop} {tree last : Tree} {world after : World}
    {answer : Except Halt BuildResult}
    (driven : Driven config requireIdle limit reads tree world answer last after)
    (undrawn : config.graphDir = none) (sleeps : config.sleepDuration? ≠ none)
    (set : ∀ now, reads now → now.isSet) (plain : tree.Every Tree.Plain)
    (distinct : tree.names.Nodup)
    (serves : ∀ name ∈ tree.names, world.runner.Serves (world.runner.buildsOf name) name)
    (fits : after.runner.Fits) (answered : answer ≠ .error Host.tickLimit) :
    answer = .ok last.result ∧ last.Smooth world.runner.buildsOf after.runner ∧
      last.Sound after.runner ∧ last.blank = tree ∧ last.checking ≠ .mustCheck := by
  have unwritten : config.graphDir.isSome = false := by rw [undrawn]; rfl
  cases driven with
  | unprepared prepared =>
      obtain ⟨same, -, leaf, member, refused⟩ := prepared
      have named : leaf.name ∈ tree.names := List.mem_map_of_mem member
      have serves' := (serves leaf.name named).grows same.grows.runner
      cases refused with
      | missing missing => exact absurd missing serves'.present
      | unknown missing => exact absurd missing serves'.present
      | overrun overrun => exact absurd fits overrun
      | busy _ found busy =>
          rw [Job.progress_idle.mpr (serves'.idle found (same.builds _))] at busy
          cases busy
  | unwritten _ written => cases unwritten.symm.trans written
  | unslept _ unslept => exact absurd unslept sleeps
  | @looped first _ there _ ended _ prepared looped concluded =>
      have smooth := prepared.smooth plain distinct serves
      have ready := prepared.2.2
      rw [unwritten] at looped
      -- A run that is not cut off by the limit of ticks has a loop that is not.
      have refused : ended ≠ .error Host.tickLimit := by
        rintro rfl
        cases concluded with
        | halted => exact answered rfl
        | overrun overrun => exact overrun fits
      cases looped.smooth set (Tree.sound_of_ready ready) smooth refused with
      | overrun overrun => exact absurd fits overrun
      | ok well =>
          cases concluded with
          | finished =>
              obtain ⟨smooth, sound, layout, settled⟩ := well
              exact ⟨rfl, smooth, sound, layout.trans prepared.2.1, settled⟩
          | unwritten written => cases unwritten.symm.trans written
          | overrun overrun => exact absurd fits overrun

theorem Ran.smooth {flow : Flow} {limit : Nat} {reads : Instant → Prop} {world after : World}
    {answer : Except Halt BuildResult} {last : Tree}
    (ran : Ran flow limit reads world answer last after) (inhabited : flow.root.children ≠ [])
    (plain : flow.root.Every Tree.Plain) (distinct : flow.root.names.Nodup)
    (checked : flow.root.standing.isUnchecked = false) (undumped : flow.config.justDump = false)
    (undrawn : flow.config.graphDir = none) (sleeps : flow.config.sleepDuration? ≠ none)
    (set : ∀ now, reads now → now.isSet)
    (serves : ∀ name ∈ flow.root.names,
      world.runner.Serves (world.runner.buildsOf name) name)
    (fits : after.runner.Fits) (answered : answer ≠ .error Host.tickLimit) :
    answer = .ok .success ∧ flow.root.Orderly world.runner after.runner := by
  -- Nothing has failed, so once the root is waited for no more it is a success.
  have driven : ∀ {answer : Except Halt BuildResult},
      Driven flow.config flow.settings.requireIdle limit reads flow.root world answer last after →
      answer ≠ .error Host.tickLimit →
      answer = .ok .success ∧ flow.root.Orderly world.runner after.runner := by
    intro answer driven answered
    obtain ⟨rfl, smooth, sound, layout, settled⟩ :=
      driven.smooth undrawn sleeps set plain distinct serves fits answered
    rw [← layout] at checked ⊢
    have checked' : last.standing.isUnchecked = false := Tree.isUnchecked_blank last ▸ checked
    have passed : last.standing.propagatedResult = .success := smooth.settled fun waits =>
      settled (Standing.propagatedChecking_eq_mustCheck.mp waits).2
    refine ⟨congrArg Except.ok ?_, smooth.orderly sound passed⟩
    rcases smooth.hopeful with unknown | success
    · rcases Standing.propagatedResult_eq_success.mp passed with good | unchecked
      · exact absurd unknown good.known
      · cases checked'.symm.trans unchecked
    · exact success
  cases ran with
  | unwritten written =>
      rw [undrawn] at written
      cases written
  | idle idle =>
      rcases idle with dump | empty
      · cases undumped.symm.trans dump
      · exact absurd empty inhabited
  | halted halted =>
      obtain ⟨impossible, -⟩ := driven halted answered
      cases impossible
  | finished finished => exact driven finished answered
  | raised finished bad =>
      obtain ⟨success, -⟩ := driven finished nofun
      exact absurd (Except.ok.inj success) bad

/-- Where no job fails, a run ends with success and has run its jobs in order,
unless no more ticks are answered. That does not happen within a number of
sweeps that depends on the tree and the job table alone. -/
theorem run_in_order {flow : Flow} {host : Host} (fresh : flow.root.IsFresh)
    (inhabited : flow.root.children ≠ []) (plain : flow.root.Every Tree.Plain)
    (distinct : flow.root.names.Nodup) (checked : flow.root.standing.isUnchecked = false)
    (quiet : host.Quiet) (alive : flow.config.killAll = false)
    (undumped : flow.config.justDump = false) (undrawn : flow.config.graphDir = none)
    (sleeps : flow.config.sleepDuration? ≠ none)
    (reliable : ∀ name ∈ flow.root.names, ∃ job, host.runner.job? name = some job ∧
      job.progress host.runner.tick = .idle ∧ job.Reliable) :
    ∃ sweeps, ∀ (limit : Nat) (answer : Except Halt BuildResult) (flow' : Flow) (host' : Host),
      run.run (flow, host.upTo limit) = (answer, flow', host') →
      (∀ now, host'.reads now → now.isSet) → host'.runner.Fits →
      (host.runner.tick + sweeps ≤ limit → answer ≠ .error Host.tickLimit) ∧
      (answer ≠ .error Host.tickLimit →
        answer = .ok .success ∧ flow.root.Orderly host.runner host'.runner) := by
  obtain ⟨longest, positive, brief⟩ := Runner.exists_brief host.runner
  refine ⟨sweepsCap flow.root longest, fun limit answer flow' host' ran set fits => ?_⟩
  have led := (leads_run (quiet.upTo limit) fresh alive).ran ran
  have serves : ∀ name ∈ flow.root.names,
      host.runner.Serves (host.runner.buildsOf name) name := by
    intro name named
    obtain ⟨job, found, idle, never⟩ := reliable name named
    refine ⟨⟨job, found, never⟩, ?_⟩
    rw [Runner.buildsOf_of_job? found]
    exact Job.progress_idle.mp idle
  obtain ⟨-, refuses⟩ := led.within positive fresh set (lively_smooth set)
    (fun first there prepared => prepared.smooth plain distinct serves) brief
  constructor
  · exact fun enough refused => Nat.not_lt.mpr enough (refuses refused)
  · exact fun answered => led.smooth inhabited plain distinct checked undumped undrawn sleeps set
      serves fits answered

/-- Two invocations at once, one of them unchecked, and then a third one. -/
def pipelineFlow : Flow :=
  .ofTree (.ofChildren true (.fresh 0 0 1 1 .normal) [
    .ofChildren false (.fresh 1 1 1 1 .normal) [
      .ofJob (.fresh 2 2 1 1 .normal) "build",
      .ofJob (.fresh 3 2 1 1 .unchecked) "lint"],
    .ofJob (.fresh 4 1 1 1 .normal) "deploy"])

/-- The jobs take some time, and the unchecked one the longest. -/
def pipelineHost : Host :=
  .ofPlans [
    { name := "build", execTicks := 3 },
    { name := "lint", execTicks := 9 },
    { name := "deploy", queueTicks := 2 }]

theorem plain_pipelineFlow : pipelineFlow.root.Every Tree.Plain := by
  have untimed : ¬ (0 : Float) < 0 := by decide +kernel
  intro node member
  simp only [pipelineFlow, Flow.ofTree, Tree.ofChildren, Tree.ofJob, Tree.nodes, Tree.nodesOf,
    List.mem_cons, List.mem_append, List.not_mem_nil, or_false] at member
  rcases member with rfl | (rfl | rfl | rfl) | rfl
  · exact ⟨List.cons_ne_nil _ _, untimed⟩
  · exact ⟨List.cons_ne_nil _ _, untimed⟩
  · trivial
  · trivial
  · trivial

theorem reliable_pipelineHost : ∀ name ∈ pipelineFlow.root.names,
    ∃ job, pipelineHost.runner.job? name = some job ∧
      job.progress pipelineHost.runner.tick = .idle ∧ job.Reliable := by
  intro name named
  have named : name ∈ ["build", "lint", "deploy"] := named
  simp only [List.mem_cons, List.not_mem_nil, or_false] at named
  rcases named with rfl | rfl | rfl <;> exact ⟨_, rfl, rfl, rfl, rfl⟩

set_option maxRecDepth 100000 in
theorem run_in_order_pipeline :
    ∃ flow' host', run.run (pipelineFlow, pipelineHost.upTo 100) = (.ok .success, flow', host') ∧
      pipelineFlow.root.Orderly pipelineHost.runner host'.runner := by
  have success : (run.run (pipelineFlow, pipelineHost.upTo 100)).1 = .ok .success := by
    decide +kernel
  have timed : ∀ event ∈ (run.run (pipelineFlow, pipelineHost.upTo 100)).2.2.trace,
      Host.timed event := by decide +kernel
  have fits : (run.run (pipelineFlow, pipelineHost.upTo 100)).2.2.runner.Fits := by decide +kernel
  obtain ⟨sweeps, ends⟩ := @run_in_order pipelineFlow pipelineHost rfl nofun plain_pipelineFlow
    (by decide) rfl (Host.quiet_start _ _ _) rfl rfl rfl (by decide +kernel) reliable_pipelineHost
  have ends := ends 100
  generalize run.run (pipelineFlow, pipelineHost.upTo 100) = out at *
  obtain ⟨answer, flow', host'⟩ := out
  dsimp only at success timed fits
  subst success
  obtain ⟨-, ending⟩ := ends _ flow' host' rfl (Host.set_of_timed timed) fits
  exact ⟨flow', host', rfl, (ending nofun).2⟩

end Flow

end BuildFlow
