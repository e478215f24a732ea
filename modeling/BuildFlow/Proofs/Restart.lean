import Mathlib.Data.List.Nodup
import BuildFlow.Proofs.Attempts
import BuildFlow.Proofs.Surfacing
import BuildFlow.Proofs.Flow.Watch
import BuildFlow.Proofs.Tree.Again
/-!
Runs of trees in which all nodes report everything. When a serial group starts over, its
children are prepared, but not what lies below them. Where the group succeeds in the end,
every invocation that waits for another attempt by then has got a new build.
-/
namespace BuildFlow

namespace Tree

theorem node?_blank (tree : Tree) (path : List Nat) :
    tree.blank.node? path = (tree.node? path).map blank := by
  induction path generalizing tree with
  | nil => rfl
  | cons index path ih =>
      simp only [node?, children_blank, List.getElem?_map]
      cases tree.children[index]? with
      | none => rfl
      | some child => exact ih child

theorem strict_of_normal {tree : Tree}
    (normal : tree.Every fun node => node.standing.propagation = .normal) : tree.Every Strict := by
  intro node member
  have checked : node.standing.isUnchecked = false := by
    simp [Standing.isUnchecked, show node.standing.propagation = .normal from normal node member]
  cases node with
  | task leaf => exact checked
  | branch group children =>
      exact ⟨checked, fun _ child first => normal child
        (mem_nodes_of_child member (List.mem_of_getElem? first) (self_mem_nodes child))⟩

theorem mem_checkedTasks {tree : Tree}
    (checked : tree.Every fun node => node.standing.isUnchecked = false) {leaf : Task}
    (member : leaf ∈ tree.tasks) : leaf ∈ tree.checkedTasks := by
  have here : leaf.isUnchecked = false := checked _ (mem_tasks.mp member)
  apply (checked_or_hidden member here).resolve_right
  rintro ⟨-, node, inside, unchecked, -⟩
  exact Bool.noConfusion ((checked node inside).symm.trans unchecked)

end Tree

namespace Flow

open Relation

variable {flow : Flow} {reads : Instant → Prop} {world : World} {state next last : Tree × World}
  {path : List Nat} {place index : Nat} {node child : Tree} {leaf : Task} {name : String} {count : Nat}

/-- Cycles keep it that an attempt is owed. -/
theorem owed_reached (owed : state.1.Every (Tree.Owed name count state.2.runner))
    (reaches : ReflTransGen (Cycle reads) state next) :
    next.1.Every (Tree.Owed name count next.2.runner) := by
  induction reaches with
  | refl => exact owed
  | tail _ cycle ih =>
      obtain ⟨unsettled, -, answered, sweep⟩ := cycle
      exact sweep.owed answered (Standing.unfinished unsettled)
        (Tree.Owed.grows ih (Runner.grows_next _))

/-- An invocation that waits for an attempt, below a node that succeeds later. -/
theorem Passes.renews (passes : flow.Passes reads world state) (set : ∀ now, reads now → now.isSet)
    (distinct : flow.root.names.Nodup) (strict : flow.root.Every Tree.Strict)
    (reaches : ReflTransGen (Cycle reads) state last) (at' : last.1.node? path = some node)
    (good : node.standing.result.IsGood) (named : leaf.name ∈ node.names)
    (member : leaf ∈ state.1.tasks) (waits : leaf.Waits) :
    (state.2.runner.buildsOf leaf.name).length < (last.2.runner.buildsOf leaf.name).length := by
  have watched := passes.watched set distinct strict
  have owed : state.1.Every
      (Tree.Owed leaf.name (state.2.runner.buildsOf leaf.name).length state.2.runner) := by
    intro other inside
    cases other with
    | branch => trivial
    | task other =>
        intro same
        have found := List.inj_on_of_nodup_map watched.distinct (Tree.mem_tasks.mpr inside) member same
        subst found
        have unknown : other.standing.result = .unknown :=
          ((watched.covered _ inside).upright.waits waits.1).2
        refine ⟨watched.strict _ inside, Nat.le_refl _, fun good => ?_, fun _ invoked => ?_⟩
        · cases good.known unknown
        · cases waits.2.symm.trans invoked
  have later := passes.trans reaches
  have owed := (owed_reached owed reaches).below at'
  have sound : node.Sound last.2.runner := later.sound.below at'
  obtain ⟨other, inside, same⟩ := List.mem_map.mp named
  have checked : node.Every fun node => node.standing.isUnchecked = false :=
    ((later.watched set distinct strict).strict.below at').mono fun _ strict => strict.checked
  have good := sound.good good other (Tree.mem_checkedTasks checked inside)
  exact same ▸ (owed _ (Tree.mem_tasks.mp inside) same).good good

/-- Nodes in the same place of two states of a run have the same layout. -/
theorem Passes.layout (passes : flow.Passes reads world state) (later : flow.Passes reads world last)
    (at' : last.1.node? path = some node) :
    ∃ old, state.1.node? path = some old ∧ node.blank = old.blank := by
  have same : state.1.blank.node? path = last.1.blank.node? path := by
    rw [passes.blank, later.blank]
  rw [Tree.node?_blank, Tree.node?_blank, at', Option.map_some] at same
  obtain ⟨old, held, layout⟩ := Option.map_eq_some_iff.mp same
  exact ⟨old, held, layout.symm⟩

/-- A group has started over and succeeds later. The invocations among its children up to the
one that had failed have new builds then, and so has whatever waited below them. -/
theorem Passes.startsOver (passes : flow.Passes reads world state)
    (set : ∀ now, reads now → now.isSet) (distinct : flow.root.names.Nodup)
    (strict : flow.root.Every Tree.Strict) (cycle : Cycle reads state next)
    (restarts : state.1.Restarts next.1 path place) (reaches : ReflTransGen (Cycle reads) next last)
    (at' : last.1.node? path = some node) (good : node.standing.result.IsGood) (within : index ≤ place)
    (below : next.1.node? (path ++ [index]) = some child) (member : leaf ∈ child.tasks)
    (waits : child = .task leaf ∨ leaf.Waits) :
    (next.2.runner.buildsOf leaf.name).length < (last.2.runner.buildsOf leaf.name).length := by
  have passes' : flow.Passes reads world next := passes.trans (.single cycle)
  obtain ⟨old, held, layout⟩ := passes'.layout (passes'.trans reaches) at'
  have listed : old.children[index]? = some child := by rwa [Tree.node?_child held] at below
  have named : leaf.name ∈ node.names := by
    rw [Tree.names_of_layout layout]
    cases old with
    | task => cases listed
    | branch =>
        exact Tree.mem_names_branch.mpr
          ⟨child, List.mem_of_getElem? listed, List.mem_map_of_mem member⟩
  have inside : leaf ∈ next.1.tasks := by
    have within : next.1.Every fun node => node ∈ next.1.nodes := fun _ member => member
    exact Tree.mem_tasks.mpr (within.below below _ (Tree.mem_tasks.mp member))
  refine passes'.renews set distinct strict reaches at' good named inside ?_
  rcases waits with rfl | waits
  -- The sweep that started over has prepared the invocation, so it waits for a build.
  · have watched := passes.watched set distinct strict
    obtain ⟨unsettled, read, -, sweep⟩ := cycle
    obtain ⟨old, scope, prepared⟩ := sweep.restarts (set _ read) (Standing.unfinished unsettled)
      (fun node member => (watched.covered node member).staged) restarts within below
    cases old with
    | task old =>
        cases prepared
        exact old.waits_prepare scope
    | branch => cases prepared
  · exact waits

/-- In a run of a tree in which all nodes report everything, let a serial group start over in its
retry scope and succeed later. Of the invocations below its children up to the one that had
failed, those that are children themselves or wait for another attempt have new builds then. -/
theorem run_starts_over {flow flow' : Flow} {host host' : Host} {answer : Except Halt BuildResult}
    (fresh : flow.root.IsFresh) (distinct : flow.root.names.Nodup)
    (normal : flow.root.Every fun node => node.standing.propagation = .normal) (quiet : host.Quiet)
    (alive : flow.config.killAll = false) (ran : run.run (flow, host) = (answer, flow', host'))
    (set : ∀ now, host'.reads now → now.isSet) :
    flow.Halted host'.reads host.world answer flow'.root host'.world ∧
      ∀ state next last, flow.Passes host'.reads host.world state → Cycle host'.reads state next →
        ReflTransGen (Cycle host'.reads) next last →
        ∀ path place group, state.1.Restarts next.1 path place → last.1.node? path = some group →
          group.standing.result = .success →
          ∀ index ≤ place, ∀ child, next.1.node? (path ++ [index]) = some child →
            ∀ leaf ∈ child.tasks, child = .task leaf ∨ leaf.Waits →
              (next.2.runner.buildsOf leaf.name).length <
                (last.2.runner.buildsOf leaf.name).length := by
  refine ⟨((leads_run quiet fresh alive).ran ran).halts fresh, ?_⟩
  intro state next last passes cycle reaches path place group restarts at' success index within child
    below leaf member waits
  exact passes.startsOver set distinct (Tree.strict_of_normal normal) cycle restarts reaches at'
    (.inl success) within below member waits

/-- Two invocations, one after the other, with two tries. -/
def twiceFlow : Flow :=
  .ofTree (.ofChildren true (.fresh 0 0 2 2 .normal) [
    .ofJob (.fresh 1 1 2 2 .normal) "build",
    .ofJob (.fresh 2 1 2 2 .normal) "deploy"])

/-- The second job fails once. -/
def twiceHost : Host := .ofPlans [{ name := "build" }, { name := "deploy", maxFails := 1 }]

set_option maxRecDepth 100000 in
theorem run_starts_over_twice :
    ∃ (flow' : Flow) (host' : Host), run.run (twiceFlow, twiceHost) = (.ok .success, flow', host') ∧
      host'.runner.order = ["build", "deploy", "build", "deploy"] ∧
      twiceFlow.Halted host'.reads twiceHost.world (.ok .success) flow'.root host'.world ∧
      ∀ state next last, twiceFlow.Passes host'.reads twiceHost.world state →
        Cycle host'.reads state next → ReflTransGen (Cycle host'.reads) next last →
        ∀ path place group, state.1.Restarts next.1 path place → last.1.node? path = some group →
          group.standing.result = .success →
          ∀ index ≤ place, ∀ child, next.1.node? (path ++ [index]) = some child →
            ∀ leaf ∈ child.tasks, child = .task leaf ∨ leaf.Waits →
              (next.2.runner.buildsOf leaf.name).length <
                (last.2.runner.buildsOf leaf.name).length := by
  have success : (run.run (twiceFlow, twiceHost)).1 = .ok .success := by decide +kernel
  have timed : ∀ event ∈ (run.run (twiceFlow, twiceHost)).2.2.trace, Host.timed event := by
    decide +kernel
  have order : (run.run (twiceFlow, twiceHost)).2.2.runner.order =
      ["build", "deploy", "build", "deploy"] := by decide +kernel
  have normal : twiceFlow.root.Every fun node => node.standing.propagation = .normal := by
    unfold Tree.Every
    decide
  generalize ran : run.run (twiceFlow, twiceHost) = out at *
  obtain ⟨answer, flow', host'⟩ := out
  dsimp only at success
  subst success
  exact ⟨flow', host', rfl, order, run_starts_over rfl (by decide) normal (Host.quiet_start _ _ _) rfl
    ran (Host.set_of_timed timed)⟩

/-- The first of the two invocations in a group of its own, which has one try. -/
def wrappedFlow : Flow :=
  .ofTree (.ofChildren true (.fresh 0 0 2 2 .normal) [
    .ofChildren true (.fresh 1 1 1 2 .normal) [.ofJob (.fresh 2 2 1 2 .normal) "build"],
    .ofJob (.fresh 3 1 2 2 .normal) "deploy"])

set_option maxRecDepth 100000 in
/-- The group starts over from its beginning, as it says, and succeeds in the end. The inner group
has the result of its only invocation still, which is not tried again. -/
theorem run_starts_over_hollow :
    wrappedFlow.root.IsFresh ∧ twiceHost.Quiet ∧ wrappedFlow.root.names.Nodup ∧
      (∀ node ∈ wrappedFlow.root.nodes, node.standing.propagation = .normal) ∧
      ∃ (flow' : Flow) (host' : Host),
        run.run (wrappedFlow, twiceHost) = (.ok .success, flow', host') ∧
        tells host' ("RETRY: deploy failed, retrying child jobs from beginning. " ++
          "Up to 1 more times in current flow") ∧
        flow'.root.standing.result = .success ∧
        (host'.runner.history "deploy").results = [.failure, .success] ∧
        (host'.runner.history "deploy").invokedAt = [3, 6] ∧
        (host'.runner.history "build").invokedAt = [1] := by
  refine ⟨rfl, Host.quiet_start _ _ _, by decide, by decide, ?_⟩
  have success : (run.run (wrappedFlow, twiceHost)).1 = .ok .success := by decide +kernel
  have told : tells (run.run (wrappedFlow, twiceHost)).2.2
      ("RETRY: deploy failed, retrying child jobs from beginning. " ++
        "Up to 1 more times in current flow") := by decide +kernel
  have result : (run.run (wrappedFlow, twiceHost)).2.1.root.standing.result = .success := by
    decide +kernel
  have results : ((run.run (wrappedFlow, twiceHost)).2.2.runner.history "deploy").results =
      [.failure, .success] := by decide +kernel
  have again : ((run.run (wrappedFlow, twiceHost)).2.2.runner.history "deploy").invokedAt =
      [3, 6] := by decide +kernel
  have once : ((run.run (wrappedFlow, twiceHost)).2.2.runner.history "build").invokedAt = [1] := by
    decide +kernel
  generalize run.run (wrappedFlow, twiceHost) = out at *
  obtain ⟨answer, flow', host'⟩ := out
  dsimp only at success
  subst success
  exact ⟨flow', host', rfl, told, result, results, again, once⟩

end Flow

end BuildFlow
