import BuildFlow.Proofs.Flow.Start
import BuildFlow.Proofs.Flow.Trail
import BuildFlow.Proofs.Tree.Progressive
/-!
Whom a serial group names when it fails. Where nothing below the group is unchecked and serial
groups begin with children that report everything, the group names the one child that the sweep has
visited. Only a child that is tried again through an outer flow is not named: the group has started
over by then, and names its first child.
-/
namespace BuildFlow

open Act NodeAct

theorem BuildResult.not_fine_of_isFailure {result : BuildResult} (failure : result.isFailure) :
    ¬ result.IsFine := by
  rintro (fine | fine | fine)
  · cases fine ▸ failure
  · cases fine ▸ failure
  · cases fine ▸ failure

namespace Tree

theorem sequence_blank (tree : Tree) : tree.blank.sequence = tree.sequence := by
  have listed : ∀ children : List Tree, sequences children = children.map sequence := by
    intro children
    induction children with
    | nil => rfl
    | cons child rest ih => rw [sequences, ih, List.map_cons]
  induction tree using childrenInduction with
  | leaf leaf => rfl
  | branch group children ih =>
      have brackets : group.blank.brackets = group.brackets := by
        unfold Group.brackets
        rw [Group.isSerial_blank]
      have below : (children.map blank).map sequence = children.map sequence := by
        rw [List.map_map]
        exact List.map_congr_left ih
      rw [blank, blanks_eq, sequence, sequence, listed, listed, below, brackets]

theorem sequence_of_layout {tree next : Tree} (layout : next.blank = tree.blank) :
    next.sequence = tree.sequence := by
  rw [← sequence_blank next, layout, sequence_blank]

end Tree

namespace Branch

/-- The child that a group names after its child at the cursor has failed: that one, unless it is
tried again, and the group starts over. -/
def blamed (children : List Tree) (child visited : Tree) (failure : JobFailure) : Tree :=
  if failure.isAborted = false ∧ visited.standing.mayTry then children.headD child else child

/-- What a group tells of its failure once its child at the cursor was visited. -/
inductive Names (now : Instant) (branch : Branch) (child : Tree) (world : World) : JobFailure → Prop
  | ended {visited : Tree} {there : World}
      (visit : Tree.Sweeps now child world (.ok ()) visited there) :
      Names now branch child world
        (.serial branch.sequence child.sequence branch.1.standing.propagation branch.1.aborted)
  | failed {failure : JobFailure} {visited : Tree} {there : World}
      (visit : Tree.Sweeps now child world (failedBy failure) visited there) :
      Names now branch child world
        (.serial branch.sequence (blamed branch.2 child visited failure).sequence
          branch.1.standing.propagation (branch.1.aborted || failure.isAborted))

variable {now : Instant} {branch passed last : Branch} {child visited : Tree} {world there : World}
  {status : Checking} {told : JobFailure}

section

variable (set : Set branch) (serial : branch.1.isSerial)
include set serial

/-- None of the children before the cursor looks like a failure, so if one in reach does, it is
the one that was visited. -/
theorem fails_visited (same : last.2 = (branch.put branch.1.cursor visited).2)
    (cursor : last.1.cursor = branch.1.cursor)
    (failed : ∃ child ∈ last.2.take last.reach, child.standing.propagatedResult = .failure) :
    visited.standing.propagatedResult = .failure := by
  obtain ⟨other, member, bad⟩ := failed
  obtain ⟨place, within, at'⟩ := Tree.mem_take_iff.mp member
  rw [same] at at'
  rcases getElem?_put at' with ⟨-, rfl⟩ | ⟨different, at'⟩
  · exact bad
  · have within : place < last.1.cursor + 1 := (Nat.lt_min.mp within).1
    have early : place < branch.1.cursor := by omega
    have done := set.passed serial other (Tree.mem_take_iff.mpr ⟨place, early, at'⟩)
    exact absurd bad done.fine

variable (here : branch.2[branch.1.cursor]? = some child)
include here

/-- The child at the cursor is named if it looks like a failure. -/
theorem failure_visited (layout : visited.blank = child.blank)
    (failed : visited.standing.propagatedResult = .failure)
    (same : last.2 = (branch.put branch.1.cursor visited).2) (reached : branch.1.cursor < last.reach) :
    last.failure =
      .serial last.sequence child.sequence last.1.standing.propagation last.1.aborted := by
  have worst : last.worstChild last.reach = some visited := by
    apply worstChild_of_failure _ reached _ failed
    · rw [same]
      exact getElem?_put_self here visited
    · rw [same]
      exact fun other member => (passed_put (set.passed serial) visited other member).fine
  unfold failure
  rw [worst, Option.map_some, Option.getD_some, Tree.sequence_of_layout layout]

/-- After a restart the first child is named. -/
theorem failure_restarted (layout : (branch.put branch.1.cursor visited).blank = branch.blank)
    (same : last.2 = ((branch.put branch.1.cursor visited).retried branch.1.cursor visited).2) :
    last.failure = .serial last.sequence (branch.2.headD child).sequence
      last.1.standing.propagation last.1.aborted := by
  have strict : Tree.Strict
      (.branch (branch.put branch.1.cursor visited).1 (branch.put branch.1.cursor visited).2) :=
    (Tree.strict_of_layout (blank_tree layout) set.strict).self
  -- A new attempt has no result yet, which looks like a failure, and nothing stands before it.
  obtain ⟨first, placed, failed⟩ :=
    retried_first (by exact serial) strict (getElem?_put_self here visited) branch.1.cursor visited
  rw [← same] at placed
  have reached : 0 < last.reach := by
    unfold reach
    exact Nat.lt_min.mpr ⟨Nat.succ_pos _, (List.getElem?_eq_some_iff.mp placed).1⟩
  have worst : last.worstChild last.reach = some first :=
    worstChild_of_failure placed reached (fun _ member => (List.not_mem_nil member).elim) failed
  have named : first.sequence = (branch.2.headD child).sequence := by
    have restarted := (blank_retried (getElem?_put_self here visited)).trans layout
    rw [same] at placed
    obtain ⟨old, held, blank⟩ := child_of_layout restarted placed
    rw [Tree.sequence_of_layout blank, List.headD_eq_head?_getD, List.head?_eq_getElem?, held]
    rfl
  unfold failure
  rw [worst, Option.map_some, Option.getD_some, named]

end

/-- How a serial group answers a child that reports everything and has failed: it leaves its
children alone and goes to its end, or it starts over. -/
theorem Answers.blames {index : Nat} {failure : JobFailure} {again : Bool}
    (answers : Answers branch index visited failure (.ok again) passed) (serial : branch.1.isSerial)
    (here : branch.2[index]? = some visited) (normal : visited.standing.propagation = .normal)
    (finished : visited.standing.isFinished) :
    passed.1.aborted = (branch.1.aborted || failure.isAborted) ∧
      (¬ (failure.isAborted = false ∧ visited.standing.mayTry) ∧ passed.2 = branch.2 ∧
          passed.1.cursor = branch.2.length ∨
        (failure.isAborted = false ∧ visited.standing.mayTry) ∧
          passed.2 = (branch.retried index visited).2) := by
  have checked : visited.standing.isUnchecked = false := by simp [Standing.isUnchecked, normal]
  have noted : branch.noted visited = branch := noted_serial serial visited
  have kept := put_finish here finished
  have moves : ∀ (group : Group) (cursor : Nat), (group.setCursor cursor).aborted = group.aborted := by
    intro group cursor
    unfold Group.setCursor
    split
    · rfl
    · rfl
  have length : (branch.put index visited.finish).2.length = branch.2.length := List.length_set ..
  -- The child reports everything, so the group cannot stay where it is.
  cases answers with
  | aborts aborted =>
      rw [noted]
      unfold aborting
      rw [if_pos (by exact serial)]
      constructor
      · rw [aborted, Bool.or_true]
        exact moves _ _
      · left
        refine ⟨fun may => Bool.noConfusion (aborted.symm.trans may.1), kept, ?_⟩
        exact (Group.cursor_setCursor (by exact serial) _).trans length
  | abortsUnchecked _ unchecked => cases checked.symm.trans unchecked
  | stays _ _ _ abnormal => exact absurd normal abnormal
  | retries unaborted may =>
      rw [noted]
      constructor
      · rw [unaborted, Bool.or_false]
        unfold retried
        rw [if_pos (by exact serial)]
        exact moves _ _
      · right
        exact ⟨⟨unaborted, may⟩, rfl⟩
  | ends unaborted spent =>
      rw [noted]
      constructor
      · rw [unaborted, Bool.or_false]
        exact moves _ _
      · left
        refine ⟨fun may => Bool.noConfusion (spent.symm.trans may.2), kept, ?_⟩
        exact (Group.cursor_setCursor (by exact serial) _).trans length
  | endsUnchecked _ _ unchecked => cases checked.symm.trans unchecked

/-- What is told of a group that has failed is that of the group that the sweep has reached. -/
theorem names_of_layout {named : Tree} {aborted : Bool} (layout : last.blank = branch.blank)
    (names : last.failure = .serial last.sequence named.sequence last.1.standing.propagation
      last.1.aborted) (same : last.1.aborted = aborted) :
    last.failure =
      .serial branch.sequence named.sequence branch.1.standing.propagation aborted := by
  have sequence : last.sequence = branch.sequence := Tree.sequence_of_layout (blank_tree layout)
  have propagation : last.1.blank.standing.propagation = branch.1.blank.standing.propagation := by
    rw [(Prod.mk.inj layout).1]
  replace propagation : last.1.standing.propagation = branch.1.standing.propagation := propagation
  rw [names, sequence, propagation, same]

/-- Whom a group names that has visited the child at its cursor. -/
theorem Single.names (set : Set branch) (serial : branch.1.isSerial)
    (here : branch.2[branch.1.cursor]? = some child)
    (unfinished : child.standing.isFinished = false) (normal : child.standing.propagation = .normal)
    (single : Single (progressing now) branch world (.ok status) passed there)
    (layout : last.blank = branch.blank) (below : last.2 = passed.2)
    (aborted : last.1.aborted = passed.1.aborted) (cursor : last.1.cursor = passed.1.cursor)
    (failed : ∃ child ∈ last.2.take last.reach, child.standing.propagatedResult = .failure) :
    Names now branch child world last.failure := by
  have inside := (List.getElem?_eq_some_iff.mp here).1
  have length : last.2.length = branch.2.length := length_of_layout layout
  cases single with
  | rests done => cases unfinished.symm.trans (done child here)
  | @passes _ visited _ here' _ visit =>
      cases here.symm.trans here'
      rw [cleared_serial (by exact serial)] at below aborted cursor
      have cursor : last.1.cursor = branch.1.cursor := cursor
      have reached : branch.1.cursor < last.reach := by
        unfold reach group children
        omega
      have bad := fails_visited set serial below cursor failed
      have names := failure_visited set serial here visit.1.blank bad below reached
      rw [names_of_layout layout names aborted]
      exact .ended visit.1
  | @fails _ visited _ failure again _ here' _ visit answers =>
      cases here.symm.trans here'
      have blank := visit.1.blank
      have normal' : visited.standing.propagation = .normal := by
        rw [← Tree.propagation_blank, blank, Tree.propagation_blank]
        exact normal
      have finished : visited.standing.isFinished := by
        have fit := set.fit child (List.mem_of_getElem? here)
        exact (visit_fit fit unfinished visit (.failed failure)).2 failure rfl
      obtain ⟨ended, ⟨given, same, left⟩ | ⟨may, same⟩⟩ :=
        answers.blames (by exact serial) (getElem?_put_self here visited) normal' finished
      · have reached : branch.1.cursor < last.reach := by
          -- The cursor has left the group, so the child that failed is among those that are looked
          -- at.
          have left : passed.1.cursor = branch.2.length := left.trans (List.length_set ..)
          unfold reach group children
          omega
        have bad : visited.standing.propagatedResult = .failure := by
          apply Standing.propagatedResult_eq_failure_iff.mpr
          exact ⟨normal', BuildResult.not_fine_of_isFailure (visit.1.failed rfl)⟩
        have names := failure_visited set serial here blank bad (below.trans same) reached
        have blamed : blamed branch.2 child visited failure = child := if_neg given
        have told := @Names.failed now branch child world failure visited there visit.1
        rw [names_of_layout layout names (aborted.trans ended)]
        rwa [blamed] at told
      · have names := failure_restarted set serial here (blank_put here blank) (below.trans same)
        have blamed : blamed branch.2 child visited failure = branch.2.headD child := if_pos may
        have told := @Names.failed now branch child world failure visited there visit.1
        rw [names_of_layout layout names (aborted.trans ended)]
        rwa [blamed] at told

/-- A group that a sweep has reached is called as before. -/
theorem Names.ofBegun {first : Branch} (names : Names now (first.begun now) child world told) :
    Names now first child world told := by
  have sequence : (first.begun now).sequence = first.sequence :=
    Tree.sequence_of_layout (blank_tree (blank_begun first now))
  obtain ⟨_, _, same⟩ := first.1.begun_eq now
  have propagation : (first.begun now).1.standing.propagation = first.1.standing.propagation := by
    rw [begun, same]
  have aborted : (first.begun now).1.aborted = first.1.aborted := by rw [begun, same]
  cases names with
  | ended visit =>
      rw [sequence, propagation, aborted]
      exact .ended visit
  | failed visit =>
      rw [sequence, propagation, aborted]
      exact .failed visit

/-- A serial group at work, the next child of which reports everything. -/
structure Awaits (branch : Branch) (child : Tree) : Prop where
  serial : branch.1.isSerial
  unfinished : branch.1.standing.isFinished = false
  here : branch.2[branch.1.cursor]? = some child
  waits : child.standing.isFinished = false
  normal : child.standing.propagation = .normal

/-- Whom a group names that a sweep leaves with a failure. -/
theorem Sweeps.names {first : Branch} {failure : JobFailure} (awaits : Awaits first child)
    (strict : (Tree.branch first.1 first.2).Every Tree.Strict)
    (every : (Tree.branch first.1 first.2).Every Tree.Progressive)
    (sweeps : Sweeps now (Tree.Sweeps now) first world (failedBy failure) last there) :
    Names now first child world last.failure := by
  have sweeps : Sweeps now (progressing now) first world (failedBy failure) last there :=
    sweeps.mono fun visit => ⟨visit, visit.progressive⟩
  have set := set_begun now strict every awaits.unfinished
  have serial : (first.begun now).1.isSerial := (Group.isSerial_begun _ _).trans awaits.serial
  have cursor : (first.begun now).1.cursor = first.1.cursor := Group.cursor_begun _ _
  have layout : last.blank = (first.begun now).blank :=
    (sweeps.blank fun visit => visit.1.blank).trans (blank_begun first now).symm
  have length : last.2.length = first.2.length :=
    length_of_layout (layout.trans (blank_begun first now))
  have inside := (List.getElem?_eq_some_iff.mp awaits.here).1
  cases sweeps with
  | halts pass => exact absurd rfl (pass.hard _)
  | @closes passed _ _ status _ pass closes =>
      cases closes with
      | fails settled failed =>
          -- What comes before the cursor is finished, so the pass was a single visit.
          have single := pass.single serial fun other member => (set.passed serial other member).finished
          have span : (passed.closed status).span = (passed.closed status).summed.reach :=
            if_pos (pass.isSerial.trans serial)
          have failed := exists_of_isFailure (settled_unknown settled) failed
          rw [span] at failed
          apply Names.ofBegun
          exact single.names set serial (cursor ▸ awaits.here) awaits.waits awaits.normal layout rfl
            rfl rfl failed

end Branch

/-! ## Sweeps -/

namespace Tree

/-- What a serial group tells is the failure that the sweep has left it with. -/
theorem check_failure (sweep : Sweep) (report : Bool) {group : Group} (serial : group.isSerial)
    (children : List Tree) (host : Host) {told : JobFailure}
    (tells : (check sweep report (.branch group children) host).1 = failedBy told) :
    ∃ last : Branch,
      (check sweep report (.branch group children) host).2.1 = .branch last.1 last.2 ∧
        told = last.failure := by
  unfold check at tells ⊢
  rw [height] at tells ⊢
  unfold checkWithin at tells ⊢
  dsimp only at tells ⊢
  rw [if_pos serial, NodeAct.visit_eq] at tells ⊢
  have names := Branch.leads_checkSerial_names sweep (checkWithin sweep (heightOf children))
    (group, children) host
  exact ⟨_, rfl, names told tells⟩

/-- Whom a serial group names, whichever sweep it fails in. -/
theorem check_names (sweep : Sweep) (report : Bool) {group : Group} {children : List Tree}
    {child : Tree} (awaits : Branch.Awaits (group, children) child)
    (strict : (Tree.branch group children).Every Strict)
    (every : (Tree.branch group children).Every Progressive) {host : Host} (quiet : host.Quiet)
    {told : JobFailure}
    (tells : (check sweep report (.branch group children) host).1 = failedBy told) :
    Branch.Names sweep.now (group, children) child host.world told := by
  obtain ⟨last, left, rfl⟩ := check_failure sweep report awaits.serial children host tells
  obtain ⟨-, sweeps⟩ := check_sweeps sweep report (.branch group children) quiet
  rw [tells, left] at sweeps
  obtain ⟨group', children', same, swept⟩ := sweeps.ofBranch
  cases same
  exact swept.names awaits strict every

end Tree

/-! ## Runs -/

namespace Flow

variable {flow : Flow} {reads : Instant → Prop} {world : World} {state : Tree × World}

/-- In all states of a run groups are done with the children that they have passed. -/
theorem Passes.progressive (passes : flow.Passes reads world state) :
    state.1.Every Tree.Progressive := by
  apply passes.keeps (p := fun state => state.1.Every Tree.Progressive)
  · exact fun prepared => Tree.progressive_of_ready prepared.2.2
  · rintro state next - every ⟨unsettled, -, answered, sweep⟩
    exact (sweep.progressive answered (Standing.unfinished unsettled) every).1

/-- Whenever a serial group of a run fails in a sweep that visits the child at its cursor, and this
child reports everything, it has visited no other one and names this child. If the child has failed
and is tried again through an outer flow, the group names its first child instead. -/
theorem run_names_child {flow' : Flow} {host host' : Host} {answer : Except Halt BuildResult}
    (fresh : flow.root.IsFresh) (quiet : host.Quiet) (alive : flow.config.killAll = false)
    (ran : run.run (flow, host) = (answer, flow', host')) :
    flow.Halted host'.reads host.world answer flow'.root host'.world ∧
      ∀ state, flow.Passes host'.reads host.world state →
        ∀ group children child, .branch group children ∈ state.1.nodes →
          (Tree.branch group children).Every Tree.Strict →
          Branch.Awaits (group, children) child →
          (∀ other ∈ children.take group.cursor, other.standing.isFinished) ∧
          ∀ (sweep : Sweep) (report : Bool) (there : Host) (told : JobFailure), there.Quiet →
            (Tree.check sweep report (.branch group children) there).1 = failedBy told →
            Branch.Names sweep.now (group, children) child there.world told := by
  refine ⟨((leads_run quiet fresh alive).ran ran).halts fresh, ?_⟩
  intro state passes group children child member strict awaits
  have every : (Tree.branch group children).Every Tree.Progressive :=
    passes.progressive.within member
  have advances : Tree.Advances group children := every.self strict
  constructor
  · exact fun other early => (advances.passed awaits.serial awaits.unfinished other early).finished
  · exact fun sweep report there told quiet tells =>
      Tree.check_names sweep report awaits strict every quiet tells

/-- The failure that a run ends with. -/
def told? : Except Halt BuildResult → Option JobFailure
  | .error (.error (.failed failure)) => some failure
  | _ => none

/-- A build and what follows it in a group of its own. -/
def releaseFlow (tries : Nat) : Flow :=
  .ofTree (.ofChildren true (.fresh 0 0 tries tries .normal) [
    .ofJob (.fresh 1 1 1 tries .normal) "build",
    .ofChildren true (.fresh 2 1 1 tries .normal) [
      .ofJob (.fresh 3 2 1 tries .normal) "deploy"]])

def releaseHost : Host := .ofPlans [{ name := "build" }, { name := "deploy", maxFails := 1 }]

set_option maxRecDepth 100000 in
theorem run_names_child_release :
    ∃ (answer : Except Halt BuildResult) (flow' : Flow) (host' : Host),
      run.run (releaseFlow 1, releaseHost) = (answer, flow', host') ∧
      told? answer = some (.serial "[build, [deploy]]" "[deploy]" .normal false) ∧
      (releaseFlow 1).Halted host'.reads releaseHost.world answer flow'.root host'.world ∧
      ∀ state, (releaseFlow 1).Passes host'.reads releaseHost.world state →
        ∀ group children child, .branch group children ∈ state.1.nodes →
          (Tree.branch group children).Every Tree.Strict →
          Branch.Awaits (group, children) child →
          (∀ other ∈ children.take group.cursor, other.standing.isFinished) ∧
          ∀ (sweep : Sweep) (report : Bool) (there : Host) (told : JobFailure), there.Quiet →
            (Tree.check sweep report (.branch group children) there).1 = failedBy told →
            Branch.Names sweep.now (group, children) child there.world told := by
  have told : told? (run.run (releaseFlow 1, releaseHost)).1 =
      some (.serial "[build, [deploy]]" "[deploy]" .normal false) := by decide +kernel
  have fresh : (releaseFlow 1).root.IsFresh := rfl
  generalize ran : run.run (releaseFlow 1, releaseHost) = out at told
  obtain ⟨answer, flow', host'⟩ := out
  exact ⟨answer, flow', host', rfl, told,
    run_names_child fresh (Host.quiet_start _ _ _) rfl ran⟩

set_option maxRecDepth 100000 in
/-- With a second try the root starts over before it tells what has failed: it names the build,
which has succeeded. -/
theorem run_names_bystander : (releaseFlow 2).root.IsFresh ∧ releaseHost.Quiet ∧
    ∃ (answer : Except Halt BuildResult) (flow' : Flow) (host' : Host),
      run.run (releaseFlow 2, releaseHost) = (answer, flow', host') ∧
      told? answer = some (.serial "[build, [deploy]]" "build" .normal false) ∧
      (host'.runner.history "build").results = [.success] ∧
      (host'.runner.history "deploy").results = [.failure] := by
  refine ⟨rfl, Host.quiet_start _ _ _, ?_⟩
  have told : told? (run.run (releaseFlow 2, releaseHost)).1 =
      some (.serial "[build, [deploy]]" "build" .normal false) := by decide +kernel
  have built : ((run.run (releaseFlow 2, releaseHost)).2.2.runner.history "build").results =
      [.success] := by decide +kernel
  have deployed : ((run.run (releaseFlow 2, releaseHost)).2.2.runner.history "deploy").results =
      [.failure] := by decide +kernel
  generalize run.run (releaseFlow 2, releaseHost) = out at *
  obtain ⟨answer, flow', host'⟩ := out
  exact ⟨answer, flow', host', rfl, told, built, deployed⟩

end Flow

end BuildFlow
