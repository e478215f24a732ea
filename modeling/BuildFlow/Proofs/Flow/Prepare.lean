import BuildFlow.Proofs.Tree.Sound
import BuildFlow.Sweep.Prepare
/-!
The pass before the first sweep. It starts no build, and if it comes to its end
every node stands before its first attempt.
-/
namespace BuildFlow

open NodeAct Act

theorem Standing.canPrepare_blank (standing : Standing) (scope : Bool) :
    standing.blank.canPrepare scope := by
  cases scope <;> rfl

/-- The world before and after has the same builds. -/
structure World.Same (before after : World) : Prop where
  grows : before.Grows after
  builds : ∀ name, after.runner.buildsOf name = before.runner.buildsOf name
  every : ∀ p, Runner.Lasting p → before.runner.Every p → after.runner.Every p
  found : ∀ name, (after.runner.job? name).isSome = (before.runner.job? name).isSome

theorem World.Same.refl (world : World) : Same world world :=
  ⟨.refl _, fun _ => rfl, fun _ _ every => every, fun _ => rfl⟩

theorem World.Same.trans {before middle after : World} (left : Same before middle)
    (right : Same middle after) : Same before after :=
  ⟨left.grows.trans right.grows, fun name => (right.builds name).trans (left.builds name),
    fun p lasting every => right.every p lasting (left.every p lasting every),
    fun name => (right.found name).trans (left.found name)⟩

theorem World.same_lookup (world : World) (name : String) (resolved : List String) :
    Same world ⟨(world.runner.lookup name).2, resolved⟩ :=
  ⟨⟨Runner.grows_lookup _ _, Runner.tick_lookup _ _⟩, Runner.buildsOf_lookup _ _,
    fun _ lasting every => Runner.every_lookup lasting _ every,
    Runner.found_lookup world.runner name⟩

namespace Task

/-- An invocation before its first attempt. -/
def Ready (runner : Runner) (task : Task) : Prop :=
  (∃ resolved oldBuild, task = { task.blank.prepare false with resolved, oldBuild }) ∧
    (task.resolved ↔ (runner.job? task.name).isSome)

/-- Why the invocation cannot be prepared. -/
inductive Refused (requireIdle : Bool) (task : Task) (runner : Runner) : Halt → Prop
  | missing (missing : runner.job? task.name = none) :
      Refused requireIdle task runner (.error (.failed (.missing task.name)))
  | unknown (missing : runner.job? task.name = none) :
      Refused requireIdle task runner (.error (.runner (.unknownJob task.name)))
  | busy (required : requireIdle) {job : Job} (found : runner.job? task.name = some job)
      (busy : (job.progress runner.tick).isIdle = false) :
      Refused requireIdle task runner (.error (.notIdle task.name (job.progress runner.tick)))
  | overrun (overrun : ¬ runner.Fits) : Refused requireIdle task runner (.broken .ticks)

/-- How preparing an invocation ends. -/
inductive Prepared (requireIdle : Bool) (task : Task) (world : World) :
    Except Halt Unit → Task → World → Prop
  | ready {prepared : Task} {after : World} (same : world.Same after)
      (layout : prepared.blank = task) (ready : prepared.Ready after.runner) :
      Prepared requireIdle task world (.ok ()) prepared after
  | refused {left : Task} {after : World} {halt : Halt} (same : world.Same after)
      (layout : left.blank = task) (refused : Refused requireIdle task after.runner halt) :
      Prepared requireIdle task world (.error halt) left after

theorem Prepared.later {requireIdle : Bool} {task next : Task} {world there after : World}
    {answer : Except Halt Unit} (prepared : Prepared requireIdle task there answer next after)
    (same : world.Same there) : Prepared requireIdle task world answer next after := by
  cases prepared with
  | ready onward layout ready => exact .ready (same.trans onward) layout ready
  | refused onward layout refused => exact .refused (same.trans onward) layout refused

section

variable {task : Task} {sweep : Sweep} {host : Host}

theorem prepared_eq (fresh : task.blank = task) :
    { task with standing := task.standing.prepare false } = task.prepare false := by
  rw [← fresh]
  rfl

theorem prepared_shape (fresh : task.blank = task) (resolved : Bool) (oldBuild : Option Nat) :
    let prepared := { task.prepare false with resolved, oldBuild }
    ∃ resolved oldBuild, prepared = { prepared.blank.prepare false with resolved, oldBuild } := by
  have layout : ({ task.prepare false with resolved, oldBuild } : Task).blank = task := fresh
  exact ⟨resolved, oldBuild, by rw [layout]⟩

/-- What follows once the job was found. -/
def greet (task : Task) (sweep : Sweep) : Step Unit := do
  onHost (Host.breakUnless (task.standing.canPrepare false) .tries)
  setStanding fun standing => standing.prepare false
  let status ← attach
  if sweep.settings.requireIdle && !sweep.killMode && !status.progress.isIdle then
    fail (.notIdle task.name status.progress)
  else
    log .info (task.standing.indentation ++ task.statusLine status.progress status.lastBuild)
      task.jobField

theorem leads_greet (fresh : task.blank = task) (faultless : host.script.faults = []) :
    (greet task sweep).Leads (task, host) fun answer state =>
      Host.Stays host state.2 ∧
        Prepared sweep.settings.requireIdle task host.world answer state.1 state.2.world := by
  have fits : task.standing.canPrepare false :=
    fresh ▸ Standing.canPrepare_blank task.standing false
  have layout : (task.prepare false).blank = task := fresh
  unfold greet
  rw [leads_bind, leads_onHost, Host.leads_breakUnless, if_pos fits]
  dsimp only
  rw [leads_bind, leads_setStanding]
  dsimp only
  rw [prepared_eq fresh, leads_bind]
  refine (leads_attach faultless).mono ?_
  rintro answer ⟨attached, there⟩ ⟨rfl, led⟩
  cases answer with
  | error halt =>
      obtain ⟨rfl, strays⟩ := led
      refine ⟨.refl _, .refused (.refl _) layout ?_⟩
      cases strays with
      | unknown named missing =>
          rcases named with rfl | ⟨ref, followed, -⟩
          · exact .unknown missing
          -- An invocation that is new follows no build whose job could be missing.
          · have unbuilt : (task.prepare false).build = none := congrArg Task.build fresh.symm
            cases unbuilt.symm.trans followed
      | overrun overrun => exact .overrun overrun
  | ok status =>
      obtain ⟨oldBuild, rfl, job, found, rfl⟩ := led
      dsimp only
      split
      · next busy =>
          have busy : sweep.settings.requireIdle ∧ (job.progress there.runner.tick).isIdle = false := by
            have busy : (sweep.settings.requireIdle ∧ sweep.killMode = false) ∧
                (job.progress there.runner.tick).isIdle = false := by
              simpa [Job.status] using busy
            exact ⟨busy.1.1, busy.2⟩
          exact ⟨.refl _, .refused (.refl _) fresh (.busy busy.1 found busy.2)⟩
      · refine ⟨Host.stays_after _ rfl, .ready (.refl _) fresh ⟨?_, ?_⟩⟩
        · exact prepared_shape fresh true oldBuild
        · exact iff_of_true rfl (Option.isSome_iff_exists.mpr ⟨job, found⟩)

theorem leads_prepareFirst (task : Task) (sweep : Sweep) (fresh : task.blank = task)
    (faultless : host.script.faults = []) :
    (prepareFirst sweep : Step Unit).Leads (task, host) fun answer state =>
      Host.Stays host state.2 ∧
        Prepared sweep.settings.requireIdle task host.world answer state.1 state.2.world := by
  have fits : task.standing.canPrepare false := fresh ▸ Standing.canPrepare_blank task.standing false
  unfold prepareFirst
  rw [leads_bind, leads_node]
  dsimp only
  rw [leads_bind, leads_onHost, Host.leads_attempt, Host.leads_resolve faultless]
  split
  · exact leads_greet fresh faultless
  · cases found : host.runner.job? task.name with
    | some job =>
        -- The look-up only counts, so the preparation goes on as if the job had been known.
        have stays : Host.Stays host ((host.lookedUp task.name).keep task.name) :=
          (Host.stays_lookedUp host _).trans (Host.stays_keep _ _)
        rw [if_pos (by rw [Runner.lookup_found found])]
        refine (leads_greet fresh (stays.faultless faultless)).mono ?_
        rintro answer state ⟨onward, prepared⟩
        have same : World.Same host.world ((host.lookedUp task.name).keep task.name).world :=
          World.same_lookup host.world task.name _
        exact ⟨stays.trans onward, prepared.later same⟩
    | none =>
        rw [if_neg (by rw [(Runner.lookup_missing found).1]; exact Bool.noConfusion)]
        dsimp only
        split
        · rw [leads_bind, leads_log]
          dsimp only
          rw [leads_bind, leads_onHost, Host.leads_breakUnless, if_pos fits]
          dsimp only
          rw [leads_setStanding]
          refine ⟨(Host.stays_lookedUp host _).trans (Host.stays_after _ rfl), ?_⟩
          dsimp only
          rw [prepared_eq fresh]
          refine .ready (World.same_lookup host.world task.name _) fresh ⟨?_, ?_⟩
          · exact prepared_shape fresh task.resolved task.oldBuild
          · have unresolved : task.resolved = false := (congrArg Task.resolved fresh).symm
            have still := (Runner.found_lookup host.runner task.name task.name).trans
              (congrArg Option.isSome found)
            exact iff_of_false (fun resolved => Bool.false_ne_true (unresolved.symm.trans resolved))
              fun present => Bool.false_ne_true (still.symm.trans present)
        · refine ⟨Host.stays_lookedUp host _, ?_⟩
          refine .refused (World.same_lookup host.world task.name _) fresh (.missing ?_)
          exact (Runner.job?_missing found task.name).trans found

end

end Task

namespace Tree

/-- A node before its first attempt. -/
def Ready (runner : Runner) : Tree → Prop
  | .task leaf => leaf.Ready runner
  | .branch group _ => group = group.blank.prepare false

theorem Ready.standing {runner : Runner} {node : Tree} (ready : node.Ready runner) :
    node.standing = node.blank.standing.prepare false := by
  cases node with
  | task leaf =>
      obtain ⟨⟨resolved, oldBuild, same⟩, -⟩ := ready
      exact congrArg Task.standing same
  | branch group children => exact congrArg Group.standing ready

/-- The node was prepared for its first attempt. -/
def Primed (node : Tree) : Prop := node.standing = node.blank.standing.prepare false

theorem Ready.same {before after : World} (same : before.Same after) {node : Tree}
    (ready : node.Ready before.runner) : node.Ready after.runner := by
  cases node with
  | branch => exact ready
  | task leaf => exact ⟨ready.1, by rw [same.found]; exact ready.2⟩

/-- How preparing the nodes of some trees ends. -/
def PreparedAll (requireIdle : Bool) (trees : List Tree) (world : World)
    (answer : Except Halt Unit) (next : List Tree) (after : World) : Prop :=
  world.Same after ∧ next.map blank = trees ∧
    match answer with
    | .ok () => ∀ tree ∈ next, tree.Every (Ready after.runner)
    | .error halt => ∃ leaf ∈ tasksOf trees, leaf.Refused requireIdle after.runner halt

def Prepared (requireIdle : Bool) (tree : Tree) (world : World) (answer : Except Halt Unit)
    (next : Tree) (after : World) : Prop :=
  world.Same after ∧ next.blank = tree ∧
    match answer with
    | .ok () => next.Every (Ready after.runner)
    | .error halt => ∃ leaf ∈ tree.tasks, leaf.Refused requireIdle after.runner halt

theorem prepareChildren_prepared {sweep : Sweep} {children : List Tree}
    (each : ∀ child ∈ children, ∀ host : Host, host.script.faults = [] →
      Host.Stays host (prepareFirst sweep child host).2.2 ∧
        Prepared sweep.settings.requireIdle child host.world (prepareFirst sweep child host).1
          (prepareFirst sweep child host).2.1 (prepareFirst sweep child host).2.2.world)
    {host : Host} (faultless : host.script.faults = [])
    (fresh : ∀ child ∈ children, child.IsFresh) :
    Host.Stays host (prepareChildren sweep children host).2.2 ∧
      PreparedAll sweep.settings.requireIdle children host.world
        (prepareChildren sweep children host).1 (prepareChildren sweep children host).2.1
        (prepareChildren sweep children host).2.2.world := by
  induction children generalizing host with
  | nil => exact ⟨.refl host, .refl _, rfl, fun _ member => (List.not_mem_nil member).elim⟩
  | cons child rest ih =>
      obtain ⟨stays, same, layout, led⟩ := each child List.mem_cons_self host faultless
      unfold prepareChildren
      generalize prepareFirst sweep child host = out at stays same layout led ⊢
      obtain ⟨answer, next, there⟩ := out
      -- Children behind one that is refused are left as they were declared.
      have kept : rest.map blank = rest :=
        map_blank.mpr fun other member => fresh other (List.mem_cons_of_mem _ member)
      cases answer with
      | error halt =>
          obtain ⟨leaf, member, refused⟩ := led
          refine ⟨stays, same, ?_, leaf, ?_, refused⟩
          · exact List.map_cons.trans (congr (congrArg List.cons layout) kept)
          · exact List.mem_append_left _ member
      | ok =>
          obtain ⟨onward, same', layouts, led'⟩ := ih
            (fun other member => each other (List.mem_cons_of_mem _ member)) (stays.faultless faultless)
            fun other member => fresh other (List.mem_cons_of_mem _ member)
          dsimp only at stays same layout led ⊢
          generalize prepareChildren sweep rest there = out at onward same' layouts led' ⊢
          obtain ⟨answer, others, after⟩ := out
          refine ⟨stays.trans onward, same.trans same', ?_, ?_⟩
          · exact List.map_cons.trans (congr (congrArg List.cons layout) layouts)
          · cases answer with
            | ok =>
                intro tree member
                rcases List.mem_cons.mp member with first | later
                · subst first
                  exact Every.mono led fun node => Ready.same same'
                · exact led' tree later
            | error halt =>
                obtain ⟨leaf, member, refused⟩ := led'
                exact ⟨leaf, List.mem_append_right _ member, refused⟩

/-- The first attempt of a group is always prepared. -/
theorem run_openGroup {group : Group} (fresh : group.blank = group) (host : Host) :
    (openGroup group).run host = (.ok (group.prepare false), host.after
      (.log .info (group.standing.indentation ++ group.opening) [])) := by
  have fits : group.standing.canPrepare false := by
    rw [← fresh]
    exact Standing.canPrepare_blank group.standing false
  unfold openGroup
  rw [fits]
  rfl

theorem prepareFirst_prepared (sweep : Sweep) (tree : Tree) (fresh : tree.IsFresh) (host : Host)
    (faultless : host.script.faults = []) :
    Host.Stays host (prepareFirst sweep tree host).2.2 ∧
      Prepared sweep.settings.requireIdle tree host.world (prepareFirst sweep tree host).1
        (prepareFirst sweep tree host).2.1 (prepareFirst sweep tree host).2.2.world := by
  induction tree using childrenInduction generalizing host with
  | leaf leaf =>
      have fresh : leaf.blank = leaf := by simpa [IsFresh, blank] using fresh
      obtain ⟨stays, prepared⟩ := Task.leads_prepareFirst leaf sweep fresh faultless
      unfold prepareFirst
      rw [visit_eq]
      generalize (Task.prepareFirst sweep : Task.Step Unit).run (leaf, host) = out at stays prepared ⊢
      obtain ⟨answer, next, after⟩ := out
      dsimp only at stays prepared ⊢
      generalize after.world = world at prepared ⊢
      cases prepared with
      | ready same layout ready =>
          exact ⟨stays, same, congrArg Tree.task layout, every_task.mpr ready⟩
      | refused same layout refused =>
          exact ⟨stays, same, congrArg Tree.task layout, leaf, List.mem_singleton_self leaf, refused⟩
  | branch group children ih =>
      obtain ⟨freshGroup, freshChildren⟩ := fresh_branch.mp fresh
      unfold prepareFirst
      rw [run_openGroup freshGroup]
      dsimp only
      have logged := Host.stays_log host .info (group.standing.indentation ++ group.opening) []
      obtain ⟨stays, same, layouts, led⟩ := prepareChildren_prepared
        (fun child member host faultless =>
          ih child member (freshChildren child member) host faultless)
        (logged.faultless faultless) freshChildren
      have layout : (group.prepare false).blank = group := by
        rw [Group.blank_prepare, freshGroup]
      generalize prepareChildren sweep children _ = out at stays same layouts led ⊢
      obtain ⟨answer, next, there⟩ := out
      dsimp only at stays same layouts led ⊢
      have whole : ∀ group', group'.blank = group →
          (Tree.branch group' next).blank = .branch group children := by
        intro group' same
        rw [blank, blanks_eq, same, layouts]
      cases answer with
      | error halt =>
          have blank : (Tree.branch (group.prepare false) next).blank = .branch group children :=
            whole _ layout
          exact ⟨logged.trans stays, same, blank, led⟩
      | ok =>
          have stays' := (logged.trans stays).trans (Host.stays_log there .info
            ((group.prepare false).standing.indentation ++ (group.prepare false).brackets.2) [])
          refine ⟨stays', same, whole _ layout, every_branch.mpr ⟨?_, led⟩⟩
          change group.prepare false = (group.prepare false).blank.prepare false
          rw [layout]

/-- A tree that is ready has nothing to account for yet. -/
theorem sound_of_ready {runner : Runner} {tree : Tree} (ready : tree.Every (Ready runner)) :
    tree.Sound runner := by
  refine ready.mono fun node ready => ?_
  cases node with
  | task leaf =>
      obtain ⟨resolved, oldBuild, same⟩ := ready.1
      change leaf.Sound runner
      rw [same]
      refine ⟨iff_of_false (fun finished => ?_) fun known => known rfl, nofun, fun _ invoked => ?_,
        fun _ known => absurd rfl known⟩
      · exact Bool.false_ne_true ((Standing.isFinished_prepare _ false).symm.trans finished)
      · cases invoked
  | branch group children =>
      intro good
      rw [show group = group.blank.prepare false from ready] at good
      rcases good with good | good <;> cases good

theorem primed_of_ready {runner : Runner} {tree : Tree} (ready : tree.Every (Ready runner)) :
    tree.Every Primed :=
  ready.mono fun _ => Ready.standing

theorem standing_of_ready {runner : Runner} {tree : Tree} (ready : tree.Every (Ready runner)) :
    tree.standing = tree.blank.standing.prepare false :=
  ready.self.standing

theorem Primed.counts {tree : Tree} (primed : tree.Primed) :
    tree.standing.tried = 1 ∧ tree.standing.totalTried = 1 ∧ tree.standing.result = .unknown ∧
      tree.standing.isInvoked = false := by
  rw [primed]
  cases tree <;> exact ⟨rfl, rfl, rfl, rfl⟩

theorem counts_of_ready {runner : Runner} {tree : Tree} (ready : tree.Every (Ready runner)) :
    tree.standing.tried = 1 ∧ tree.standing.totalTried = 1 ∧ tree.standing.result = .unknown ∧
      tree.standing.isInvoked = false :=
  Primed.counts (standing_of_ready ready)

/-- An unchecked tree is not waited for. -/
theorem checked_of_ready {runner : Runner} {tree : Tree} (ready : tree.Every (Ready runner))
    (waits : tree.checking = .mustCheck) : tree.standing.isUnchecked = false := by
  unfold checking at waits
  rw [standing_of_ready ready] at waits ⊢
  cases unchecked : tree.blank.standing.isUnchecked with
  | false => exact unchecked
  | true => simp [Standing.prepare, unchecked] at waits

end Tree

end BuildFlow
