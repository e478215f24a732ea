import BuildFlow.Proofs.Flow.Start
import BuildFlow.Proofs.Flow.Wild
import BuildFlow.Proofs.Tree.Timely
/-!
What a timeout is about, on any host. A run that ends with one tells of a group that has run for
longer than it may, and of the children that it still waits for. If nothing in the group is unchecked,
the group has no result by then, and there are such children.
-/
namespace BuildFlow

open Act NodeAct

namespace Branch

/-- The group has run for too long, and this is what is told of it. -/
structure Expired (branch : Branch) (name elapsed : String) (listed : List String)
    (propagation : Propagation) : Prop where
  overdue : ∃ sweep : Sweep, isOverdue branch.1 sweep.now ∧
    elapsed = branch.1.standing.elapsed sweep.now sweep.start
  name : name = branch.sequence
  listed : listed = unfinished branch
  propagation : propagation = branch.1.standing.propagation

/-- Where nothing in the group is unchecked, it has no result, and some of its children are waited
for. -/
def AtWork (branch : Branch) : Prop :=
  (∀ child ∈ branch.2, child.Clean) →
    branch.1.standing.result = .unknown ∧ unfinished branch ≠ []

end Branch

/-- If this is a timeout, it is told of a group of the tree that has run for too long. -/
def Tree.Lapses (tree : Tree) (halt : Halt) : Prop :=
  ∀ name elapsed listed propagation, halt = .error (.timeout name elapsed listed propagation) →
    ∃ group children, .branch group children ∈ tree.nodes ∧
      Branch.Expired (group, children) name elapsed listed propagation ∧
      Branch.AtWork (group, children)

theorem Tree.lapses_of_foreign {tree : Tree} {halt : Halt} (foreign : halt.Foreign) :
    tree.Lapses halt := by
  rintro name elapsed listed propagation rfl
  exact foreign.elim

theorem Tree.Lapses.above {group : Group} {children : List Tree} {child : Tree} {halt : Halt}
    (lapses : child.Lapses halt) (member : child ∈ children) :
    (Tree.branch group children).Lapses halt := by
  intro name elapsed listed propagation same
  obtain ⟨late, below, inside, told⟩ := lapses name elapsed listed propagation same
  exact ⟨late, below, List.mem_cons_of_mem _ (mem_nodesOf.mpr ⟨child, member, inside⟩), told⟩

namespace Branch

/-- The visits that keep nodes timely, and tell timeouts of groups that have run for too long. -/
def lapsingCourse : Course Tree := fun child world answer next after =>
  timelyCourse child world answer next after ∧
    (child.standing.isFinished = false → child.Every Tree.Timely → Ends next.Lapses answer)

variable {indices : List Nat} {branch passed last : Branch} {world after : World} {status : Checking}
  {sweep : Sweep} {host : Host}

/-- A pass that ends with a timeout ends with that of a child. -/
theorem Pass.lapses {ended : Except Halt Checking}
    (pass : Pass lapsingCourse indices branch world status ended last after)
    (kept : ∀ child ∈ branch.2, child.Every Tree.Timely) :
    Ends (Tree.branch last.1 last.2).Lapses ended := by
  induction pass with
  | done => exact ends_ok _
  | skips _ _ ih => exact ih kept
  | passes here unfinished visit _ ih =>
      have timely := visit.1.2 unfinished (kept _ (List.mem_of_getElem? here))
      exact ih (PassTimely.put kept timely)
  | fails here unfinished visit answers _ ih =>
      have timely := visit.1.2 unfinished (kept _ (List.mem_of_getElem? here))
      exact ih (PassTimely.answered (PassTimely.put kept timely) answers timely)
  | breaks _ _ _ answers =>
      cases answers
      exact ends_error nofun
  | halts here unfinished visit =>
      have lapses := visit.2 unfinished (kept _ (List.mem_of_getElem? here))
      exact ends_error
        ((lapses _ rfl).above (List.mem_of_getElem? (getElem?_put_self here _)))

/-- The end of a sweep tells a timeout only of the group itself. -/
theorem leads_close_expired {settling : Step Unit}
    (settles : Settles sweep settling status passed host) :
    (close sweep settling status passed).Leads (passed.closed status, host) fun answer state =>
      Closes sweep.now (passed.closed status) status answer state.1 ∧
        ∀ name elapsed listed propagation,
          answer = .error (.error (.timeout name elapsed listed propagation)) →
          state.1 = passed.closed status ∧ isPending status state.1 ∧
            Expired state.1 name elapsed listed propagation := by
  unfold close
  cases pending : isPending status (passed.closed status) with
  | true =>
      change (checkTimeout sweep).Leads _ _
      unfold checkTimeout
      rw [leads_bind, leads_node]
      dsimp only
      split
      · next overdue =>
          refine ⟨.overdue pending overdue, ?_⟩
          rintro _ _ _ _ ⟨⟩
          exact ⟨rfl, pending, ⟨sweep, overdue, rfl⟩, rfl, rfl, rfl⟩
      · next inTime => exact ⟨.pending pending (by simpa using inTime), nofun⟩
  | false =>
      apply (settles pending).mono
      rintro answer ⟨last, after⟩ ⟨-, -, closes⟩
      refine ⟨closes, ?_⟩
      rintro name elapsed listed propagation rfl
      dsimp only at closes
      generalize passed.closed status = closed at pending closes
      cases closes with
      | overdue late => cases pending.symm.trans late

section

variable {levels : Nat} {visit : Bool → Visit Tree}

/-- Where a sweep over a group leads. -/
def Lapsing (levels : Nat) (branch : Branch) (answer : Except Halt Unit) (last : Branch) : Prop :=
  Low levels last ∧ last.blank = branch.blank ∧
    (branch.1.standing.isFinished = false → (Tree.branch branch.1 branch.2).Every Tree.Timely →
      (Tree.branch last.1 last.2).Every Tree.Timely ∧
        Ends (Tree.branch last.1 last.2).Lapses answer)

theorem leads_check_lapsing (sound : ∀ report, SoundFor .any lapsingCourse levels (visit report))
    (low : Low levels branch) :
    (if branch.1.isSerial then checkSerial sweep visit
      else checkParallel sweep visit : Step Unit).Leads (branch, host) fun answer state =>
      Lapsing levels branch answer state.1 := by
  apply leads_checkWith sound low trivial
  · intro halt passed after _ low pass
    have blank : passed.blank = branch.blank :=
      (pass.blank fun visit => visit.1.1).trans (blank_begun branch _)
    refine ⟨low, blank, fun unfinished every => ⟨?_, ?_⟩⟩
    · have timely := (pass.mono fun visit => visit.1).timely_begun every _
      exact Tree.every_branch.mpr ⟨pass.timely_halted every _ unfinished blank, timely.1⟩
    · exact (pass.lapses (Tree.every_branch.mp every).2).halts
  · intro settling status passed after _ low pass settles
    have blank : passed.blank = branch.blank :=
      (pass.blank fun visit => visit.1.1).trans (blank_begun branch _)
    apply (leads_close_expired settles).mono
    rintro answer ⟨last, there⟩ ⟨closes, told⟩
    have below : last.2 = passed.2 := closes.children
    refine ⟨fun child member => low child (below ▸ member),
      closes.blank.trans ((blank_closed _ _).trans blank), fun unfinished every => ?_⟩
    have timely := pass.mono fun visit => visit.1
    refine ⟨(Sweeps.closes timely closes).timely every sweep.now unfinished, ?_⟩
    rintro halt rfl name elapsed listed propagation rfl
    obtain ⟨rfl, pending, expired⟩ := told name elapsed listed propagation rfl
    refine ⟨_, _, Tree.self_mem_nodes _, expired, fun clean => ?_⟩
    have unknown : (passed.closed status).1.standing.result = .unknown :=
      (result_closed passed status).trans
        (pass.unknown_of_clean every sweep.now unfinished blank clean)
    refine ⟨unknown, ?_⟩
    -- Without a result the group is not done with its pass for the sake of a child.
    have waits := (isPending_iff.mp pending).resolve_right (absurd unknown)
    obtain same | ⟨-, place, child, -, here, checking⟩ :=
      ((timely.timely_begun every sweep.now).2 status rfl).plain clean
    · cases waits.symm.trans same
    · have member : child ∈ passed.2.filter fun child => child.checking = .mustCheck :=
        List.mem_filter.mpr ⟨List.mem_of_getElem? here, decide_eq_true checking⟩
      exact List.ne_nil_of_mem (List.mem_map_of_mem member)

end

end Branch

theorem Task.Reaches.lapsing {leaf next : Task} {answer : Except Halt Unit} {world after : World}
    (reaches : leaf.Reaches answer next) :
    Branch.lapsingCourse (.task leaf) world answer (.task next) after := by
  have layout : (Tree.task next).blank = (Tree.task leaf).blank := by
    cases reaches with
    | goesOn attempted => exact congrArg Tree.task attempted.blank
    | ends attempted => exact congrArg Tree.task attempted.blank
  refine ⟨⟨layout, fun _ every => ?_⟩, fun _ _ => ?_⟩
  · refine Tree.every_task.mpr ⟨fun clean => ?_, fun _ _ same => by cases same⟩
    have waits := every.self.waits (Tree.clean_of_layout layout.symm clean)
    cases reaches with
    | goesOn attempted => exact waits.imp attempted.checking.trans attempted.checking.trans
    | ends => exact .inr rfl
  · cases reaches with
    | goesOn _ foreign => exact foreign.widen fun _ => Tree.lapses_of_foreign
    | ends _ _ answered =>
        cases answered with
        | ok => exact ends_ok _
        | failed => exact ends_error nofun

namespace Tree

theorem checkWithin_lapsing (sweep : Sweep) (levels : Nat) (report : Bool) :
    Branch.SoundFor .any Branch.lapsingCourse levels (checkWithin sweep levels report) := by
  refine soundFor_checkWithin .any (fun _ => Branch.lapsingCourse) ?_ ?_ levels report
  · exact fun _ report leaf host _ => ⟨trivial, (Task.reaches_check leaf sweep report host).lapsing⟩
  · intro levels branch host sound low _
    apply (Branch.leads_check_lapsing sound low).mono
    intro answer state lapsing
    refine ⟨trivial, lapsing.1, ⟨Branch.blank_tree lapsing.2.1, ?_⟩, ?_⟩
    · exact fun unfinished every => (lapsing.2.2 unfinished every).1
    · exact fun unfinished every => (lapsing.2.2 unfinished every).2

/-- A sweep keeps all nodes timely, and the timeout that it may end with is that of a group which
has run for too long. -/
theorem check_lapsing (sweep : Sweep) (report : Bool) (tree : Tree) (host : Host)
    (unfinished : tree.standing.isFinished = false) (every : tree.Every Timely) :
    (check sweep report tree host).2.1.Every Timely ∧
      Ends (check sweep report tree host).2.1.Lapses (check sweep report tree host).1 := by
  obtain ⟨-, ⟨⟨-, timely⟩, lapses⟩, -⟩ :=
    checkWithin_lapsing sweep tree.height report tree host (Nat.le_refl _) trivial
  exact ⟨timely unfinished every, lapses unfinished every⟩

end Tree

/-! ## Runs -/

namespace Flow

/-- From a declared tree on, all nodes are timely in all phases of a run. -/
theorem phases_lapsing (settings : Settings) :
    Phases .any settings Tree.IsFresh (fun tree => tree.Every Tree.Timely) (fun _ => True)
      Tree.Lapses where
  prepares := by
    rintro sweep tree host - fresh -
    obtain ⟨ends, primed⟩ := Tree.prepareFirst_wild sweep fresh host
    refine ⟨trivial, ends.widen fun halt early => ⟨trivial, ?_⟩, fun prepared => ?_⟩
    · rcases early with foreign | ⟨name, rfl⟩
      · exact Tree.lapses_of_foreign foreign
      · exact nofun
    · have primed := (primed prepared).2 _ (List.mem_singleton_self _)
      exact primed.mono fun _ => .prepared
  sweeps := by
    rintro sweep tree host - unsettled every -
    exact ⟨trivial, Tree.check_lapsing sweep false tree host (Standing.unfinished unsettled) every⟩
  outlasts := fun _ _ => trivial
  begun := fun _ => trivial
  followed := fun _ => trivial
  foreign := Tree.lapses_of_foreign

/-- A timeout that a run ends with, on whatever host, is told of a group that has run for too long,
and it lists the children that the group waits for. If nothing in the group is unchecked, the group
has no result, and some child is listed. -/
theorem run_times_out {flow flow' : Flow} {host host' : Host} {name elapsed : String}
    {listed : List String} {propagation : Propagation} (fresh : flow.root.IsFresh)
    (ran : run.run (flow, host) =
      (.error (.error (.timeout name elapsed listed propagation)), flow', host')) :
    ∃ group children, .branch group children ∈ flow'.root.nodes ∧
      Branch.Expired (group, children) name elapsed listed propagation ∧
      ((∀ child ∈ children, child.Clean) → group.standing.result = .unknown ∧ listed ≠ []) := by
  have led := ((phases_lapsing flow.settings).leads_run ⟨rfl, fresh⟩ trivial).ran ran
  obtain ⟨group, children, member, expired, atWork⟩ := led.2.2 _ rfl _ _ _ _ rfl
  refine ⟨group, children, member, expired, fun clean => ?_⟩
  rw [expired.listed]
  exact atWork clean

/-- The group that a timeout is told of, and the children that it lists. -/
def timeout? : Except Halt BuildResult → Option (String × List String)
  | .error (.error (.timeout name _ listed _)) => some (name, listed)
  | _ => none

theorem of_timeout {answer : Except Halt BuildResult} {name : String} {listed : List String}
    (told : timeout? answer = some (name, listed)) :
    ∃ elapsed propagation, answer = .error (.error (.timeout name elapsed listed propagation)) := by
  unfold timeout? at told
  split at told
  · cases told
    exact ⟨_, _, rfl⟩
  · cases told

/-- A build and a check that may take three seconds together, and a deployment. -/
def timedFlow (propagation : Propagation) : Flow :=
  .ofTree (.ofChildren false (.fresh 0 0 1 1 .normal) [
    .branch (Draft.freshGroup (.fresh 1 1 1 1 .normal) { timeout := 3 } 5 ""
        (Draft.freshDiscipline false)) [
      .ofJob (.fresh 2 2 1 1 .normal) "build",
      .ofJob (.fresh 3 2 1 1 propagation) "lint"],
    .ofJob (.fresh 4 1 1 1 .normal) "deploy"])

def slowHost : Host :=
  .ofPlans [{ name := "build" }, { name := "lint", execTicks := 20 },
    { name := "deploy", execTicks := 20 }]

set_option maxRecDepth 100000 in
theorem run_times_out_lint :
    ∃ (elapsed : String) (propagation : Propagation) (flow' : Flow) (host' : Host),
      run.run (timedFlow .normal, slowHost) =
        (.error (.error (.timeout "(build, lint)" elapsed ["lint"] propagation)), flow', host') ∧
      ∃ group children, .branch group children ∈ flow'.root.nodes ∧
        Branch.Expired (group, children) "(build, lint)" elapsed ["lint"] propagation ∧
        ((∀ child ∈ children, child.Clean) →
          group.standing.result = .unknown ∧ ["lint"] ≠ []) := by
  have told : timeout? (run.run (timedFlow .normal, slowHost)).1 =
      some ("(build, lint)", ["lint"]) := by decide +kernel
  generalize ran : run.run (timedFlow .normal, slowHost) = out at told
  obtain ⟨answer, flow', host'⟩ := out
  obtain ⟨elapsed, propagation, rfl⟩ := of_timeout told
  have fresh : (timedFlow .normal).root.IsFresh := rfl
  exact ⟨elapsed, propagation, flow', host', rfl, run_times_out fresh ran⟩

set_option maxRecDepth 100000 in
/-- If the check is unchecked, the group has succeeded without it. It is still visited for the sake
of the check, and after three seconds it ends the run although it waits for nothing. -/
theorem run_times_out_done : (timedFlow .unchecked).root.IsFresh ∧ slowHost.Quiet ∧
    ∃ (elapsed : String) (propagation : Propagation) (flow' : Flow) (host' : Host),
      run.run (timedFlow .unchecked, slowHost) =
        (.error (.error (.timeout "(build, lint)" elapsed [] propagation)), flow', host') ∧
      flow'.root.children.map Tree.result = [.success, .unknown] := by
  refine ⟨rfl, Host.quiet_start _ _ _, ?_⟩
  have told : timeout? (run.run (timedFlow .unchecked, slowHost)).1 =
      some ("(build, lint)", []) := by decide +kernel
  have results : (run.run (timedFlow .unchecked, slowHost)).2.1.root.children.map Tree.result =
      [.success, .unknown] := by decide +kernel
  generalize run.run (timedFlow .unchecked, slowHost) = out at *
  obtain ⟨answer, flow', host'⟩ := out
  obtain ⟨elapsed, propagation, rfl⟩ := of_timeout told
  exact ⟨elapsed, propagation, flow', host', rfl, results⟩

end Flow

end BuildFlow
