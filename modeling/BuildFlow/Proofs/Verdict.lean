import BuildFlow.Proofs.Flow.Wild
import BuildFlow.Proofs.Outcomes
/-!
The result that a run ends with. As long as the root waits it has no result, and once it waits for
nothing it is a success or unstable; only a sweep that fails leaves it with a failure. An unchecked
root is never waited for, so that its run is over before the first sweep.
-/
namespace BuildFlow

open NodeAct Act

/-- What a run may come to without a failure. -/
def BuildResult.IsVerdict (result : BuildResult) : Prop := result = .success ∨ result = .unstable

theorem BuildResult.IsVerdict.unfailed {result : BuildResult} (verdict : result.IsVerdict) :
    result ≠ .failure := by
  rcases verdict with success | unstable
  · simp [success]
  · simp [unstable]

/-! ## Sweeps over the root -/

namespace Branch

/-- A group that sums up children and does not fail is a success or unstable. -/
theorem verdict_of_aggregate {branch : Branch} (unknown : branch.1.standing.result = .unknown)
    (inhabited : branch.2 ≠ []) (fine : (branch.aggregate branch.span).isFailure = false) :
    (branch.aggregate branch.span).IsVerdict := by
  obtain ⟨child, -, same⟩ := exists_of_aggregate unknown (take_span_ne_nil inhabited)
  rw [same] at fine ⊢
  rcases child.standing.propagatedResult_range with success | unstable | failure
  · exact .inl success
  · exact .inr unstable
  · rw [failure] at fine
    cases fine

end Branch

namespace Tree

/-- The node is waited for and has no result yet, or it has come to one that is no failure. -/
def OnCourse (tree : Tree) : Prop :=
  tree.checking = .mustCheck ∧ tree.result = .unknown ∨ tree.result.IsVerdict

theorem OnCourse.unfailed {tree : Tree} (course : tree.OnCourse) : tree.result ≠ .failure := by
  rcases course with ⟨-, unknown⟩ | verdict
  · simp [unknown]
  · exact verdict.unfailed

/-- What one sweep makes of a group with children that is on course: it stays so unless the sweep
does not come to its end, and it has a failure only where it tells one. -/
theorem Sweeps.course {now : Instant} {group : Group} {children : List Tree} {next : Tree}
    {world after : World} {answer : Except Halt Unit}
    (sweeps : Sweeps now (.branch group children) world answer next after)
    (inhabited : children ≠ []) (course : (Tree.branch group children).OnCourse) :
    (answer = .ok () → next.OnCourse) ∧
      (next.result = .failure → ∃ failure, answer = failedBy failure) := by
  have layout := sweeps.blank
  obtain ⟨group', children', rfl, swept⟩ := sweeps.ofBranch
  -- A pass over the children leaves the result of the group alone.
  have begun : (group.begun now).standing.result = group.standing.result := by
    obtain ⟨time, same⟩ := Group.standing_begun group now
    rw [same]
  cases swept with
  | halts pass =>
      constructor
      · nofun
      · intro failed
        have kept : group'.standing.result = group.standing.result := pass.result.trans begun
        exact absurd (kept.symm.trans failed) course.unfailed
  | @closes passed _ _ status _ pass closes =>
      have result : (passed.closed status).1.standing.result = group.standing.result :=
        (Branch.result_closed passed status).trans (pass.result.trans begun)
      cases closes with
      | pending pending =>
          constructor
          · intro _
            rcases course with ⟨-, unknown⟩ | verdict
            · left
              constructor
              · -- The group has no result that it could wait with.
                exact (Branch.isPending_iff.mp pending).resolve_right
                  fun known => known (result.trans unknown)
              · exact result.trans unknown
            · right
              exact result ▸ verdict
          · intro failed
            exact absurd (result.symm.trans failed) course.unfailed
      | overdue =>
          constructor
          · nofun
          · intro failed
            exact absurd (result.symm.trans failed) course.unfailed
      | fails => exact ⟨nofun, fun _ => ⟨_, rfl⟩⟩
      | moves => exact ⟨fun _ => .inl ⟨rfl, rfl⟩, nofun⟩
      | ends settled fine =>
          have inhabited' : passed.2 ≠ [] :=
            (branch group children).inhabited_of_layout layout inhabited
          have verdict : (Tree.branch ((passed.closed status).summed).moved.1 passed.2).result.IsVerdict := by
            have summed := Branch.verdict_of_aggregate (Branch.settled_unknown settled) inhabited' fine
            change ((passed.closed status).summed.moved.1.standing.result).IsVerdict
            rw [Branch.standing_moved]
            exact summed
          constructor
          · exact fun _ => .inr verdict
          · exact fun failed => absurd failed verdict.unfailed

end Tree

/-! ## Runs -/

namespace Flow

theorem Looped.course {dir : Bool} {limit : Nat} {reads : Instant → Prop} {tree last : Tree}
    {world after : World} {answer : Except Halt Unit}
    (looped : Looped dir limit reads tree world answer last after) (inhabited : tree.children ≠ [])
    (course : tree.OnCourse) :
    (answer = .ok () → last.OnCourse) ∧
      (last.result = .failure → ∃ failure, answer = failedBy failure) := by
  have swept : ∀ {tree next : Tree} {world after : World} {now : Instant} {answer : Except Halt Unit},
      tree.children ≠ [] → tree.OnCourse → Tree.Sweeps now tree world answer next after →
      (answer = .ok () → next.OnCourse) ∧
        (next.result = .failure → ∃ failure, answer = failedBy failure) := by
    intro tree next world after now answer inhabited course sweep
    cases tree with
    | task leaf => exact absurd rfl inhabited
    | branch group children => exact sweep.course inhabited course
  induction looped with
  | settled => exact ⟨fun _ => course, fun failed => absurd failed course.unfailed⟩
  | again _ _ _ sweep _ ih =>
      exact ih (Tree.inhabited_of_layout sweep.blank inhabited) ((swept inhabited course sweep).1 rfl)
  | broke _ _ _ sweep => exact swept inhabited course sweep
  | refused => exact ⟨nofun, fun failed => absurd failed course.unfailed⟩
  | overrun => exact ⟨nofun, fun failed => absurd failed course.unfailed⟩
  | unwritten _ _ _ _ sweep =>
      exact ⟨nofun, fun failed => absurd failed ((swept inhabited course sweep).1 rfl).unfailed⟩

/-- A checked node is waited for once it is prepared. -/
theorem waits_of_ready {runner : Runner} {tree : Tree} (ready : tree.Every (Tree.Ready runner))
    (checked : tree.blank.standing.isUnchecked = false) : tree.checking = .mustCheck := by
  unfold Tree.checking
  rw [Tree.standing_of_ready ready]
  simp [Standing.prepare, checked]

/-- Without an error a run ends only with a root that is a success or unstable, and with a root that
has failed only if it tells a failure that might be retried. Counts of ticks may have left their
range by then. -/
structure Concludes (answer : Except Halt BuildResult) (root : Tree) : Prop where
  verdict : ∀ result, concluded? answer = some result → result.IsVerdict
  failed : root.result = .failure → answer = .error (.broken .ticks) ∨
    ∃ error, answer = .error (.error error) ∧ error.isRetryable

/-- A run that is broken off leaves a root that has not failed. -/
theorem concludes_of_halt {halt : Halt} {root : Tree}
    (unraised : ∀ result, halt ≠ .error (.finalResult result)) (unfailed : root.result ≠ .failure) :
    Concludes (.error halt) root where
  verdict result concludes := by
    unfold concluded? at concludes
    split at concludes
    · next same => cases same
    · next same =>
        cases same
        exact absurd rfl (unraised _)
    · cases concludes
  failed failed := absurd failed unfailed

/-- What a run makes of its loop. -/
theorem Looped.concludes {dir : Bool} {limit : Nat} {reads : Instant → Prop} {tree last : Tree}
    {world after : World} {ended : Except Halt Unit} {answer : Except Halt BuildResult}
    (looped : Looped dir limit reads tree world ended last after)
    (concluded : Concluded dir last after ended answer) (inhabited : tree.children ≠ [])
    (course : tree.OnCourse) : Concludes answer last := by
  obtain ⟨onCourse, failing⟩ := looped.course inhabited course
  cases concluded with
  | @halted halt =>
      constructor
      · intro result concludes
        unfold concluded? at concludes
        split at concludes
        · next same => cases same
        · next same =>
            cases same
            exact looped.unraised.elim
        · cases concludes
      · intro failed
        obtain ⟨failure, same⟩ := failing failed
        cases same
        exact .inr ⟨_, rfl, rfl⟩
  | finished =>
      -- The loop has come to its end, so that the root is not waited for any more.
      have verdict : last.result.IsVerdict :=
        (onCourse rfl).resolve_left fun waits => looped.settles waits.1
      constructor
      · intro result same
        cases same
        exact verdict
      · exact fun failed => absurd failed verdict.unfailed
  | unwritten => exact concludes_of_halt nofun (onCourse rfl).unfailed
  | overrun => exact ⟨nofun, fun _ => .inl rfl⟩

/-! ### From the declared tree to the answer -/

/-- No sweep goes over the tree before the loop. -/
theorem leads_setUp_unswept {flow : Flow} (host : Host) (fresh : flow.root.IsFresh)
    (inhabited : flow.root.children ≠ []) :
    (setUp : Step Duration).Leads (flow, host) fun _ state => state.1.root.result = .unknown := by
  have starts : Starts .any flow.settings (fun tree => tree.IsFresh ∧ tree.children ≠ [])
      (fun tree => tree.result = .unknown) (fun tree => tree.result = .unknown)
      (fun _ _ => True) := {
    prepares := by
      rintro sweep tree host - ⟨fresh, inhabited⟩ -
      have unknown : (Tree.prepareFirst sweep tree host).2.1.result = .unknown := by
        cases tree with
        | task leaf => exact absurd rfl inhabited
        | branch group children => exact Tree.result_prepareFirst sweep fresh host
      exact ⟨trivial, fun _ _ => ⟨unknown, trivial⟩, fun _ => unknown⟩
    begun := fun begun => Tree.result_of_fresh begun.1
    followed := id
    foreign := fun _ => trivial }
  apply (starts.leads_setUp ⟨rfl, fresh, inhabited⟩ trivial).mono
  exact fun _ _ led => led.2.1.root

theorem leads_drive_concludes {flow : Flow} {host : Host} (quiet : host.Quiet)
    (fresh : flow.root.IsFresh) (inhabited : flow.root.children ≠ [])
    (checked : flow.root.standing.isUnchecked = false) :
    (drive : Step BuildResult).Leads (flow, host) fun answer state =>
      Concludes answer state.1.root := by
  rw [drive_eq, leads_bind]
  apply (leads_setUp quiet.faultless fresh).known.mono
  rintro answer ⟨prepared, there⟩ ⟨⟨config, stays, led⟩, ran⟩
  dsimp only at config stays led ⊢
  have unswept : prepared.root.result = .unknown :=
    (leads_setUp_unswept host fresh inhabited).ran ran
  have unfailed : prepared.root.result ≠ .failure := by simp [unswept]
  generalize same : there.world = world at led
  cases led with
  | unprepared unprepared =>
      apply concludes_of_halt _ unfailed
      rintro result rfl
      obtain ⟨-, -, leaf, -, refused⟩ := unprepared
      cases refused
  | unwritten => exact concludes_of_halt nofun unfailed
  | unslept => exact concludes_of_halt nofun unfailed
  | ready ready =>
      obtain ⟨-, layout, ready⟩ := ready
      -- A root that is ready is waited for, and has no result yet.
      have course : prepared.root.OnCourse :=
        .inl ⟨waits_of_ready ready (layout ▸ checked), unswept⟩
      have inhabited' : prepared.root.children ≠ [] :=
        Tree.inhabited_of_layout (layout.trans fresh.symm) inhabited
      apply (leads_loop _ (quiet.stays stays)).mono
      rintro answer state ⟨-, -, ended, looped, concluded⟩
      exact looped.concludes concluded inhabited' course

/-- A run ends as its main part did. A result other than success may be told as an error. -/
theorem leads_conclude {flow : Flow} {ended : Except Halt BuildResult} {state : Flow × Host}
    {post : Except Halt BuildResult → Flow × Host → Prop}
    (halted : ∀ halt, ended = .error halt → ∀ there : Host, there.world = state.2.world →
      post (.error halt) (state.1, there))
    (finished : ∀ result, ended = .ok result → ∀ there : Host, there.world = state.2.world →
      post (.ok result) (state.1, there) ∧
        post (.error (.error (.finalResult result))) (state.1, there)) :
    (conclude flow ended).Leads state post := by
  unfold conclude
  rw [leads_bind, leads_setListener]
  dsimp only
  rw [leads_bind, leads_log]
  dsimp only
  cases ended with
  | error halt =>
      cases halt with
      | broken => exact halted _ rfl _ rfl
      | error error => exact halted _ rfl _ rfl
  | ok result =>
      obtain ⟨returns, raises⟩ := finished result rfl
        (({ state.2 with listener := .off } : Host).after (.log .info "Flow finished" [])) rfl
      dsimp only
      rw [leads_bind, leads_host]
      dsimp only
      split
      · exact raises
      · exact returns

/-- A run that is not over at once writes the graph, if there is a place for it, and goes on to its
main part. -/
theorem leads_run_of_main {flow : Flow} {host : Host}
    {post : Except Halt BuildResult → Flow × Host → Prop} (quiet : host.Quiet)
    (alive : flow.config.killAll = false) (works : flow.config.justDump = false)
    (inhabited : flow.root.children ≠ [])
    (unwritten : flow.config.graphDir.isSome → ∀ (fault : FileFault) (there : Host),
      post (.error (.error (.file fault))) (flow, there))
    (main : ∀ there : Host, there.Quiet → there.world = host.world → there.script = host.script →
      (mainRun flow).Leads (flow, there) post) :
    (run : Step BuildResult).Leads (flow, host) post := by
  apply leads_run_of quiet alive
  · exact fun written fault there _ => unwritten written fault there
  · rintro (dump | empty)
    · simp [works] at dump
    · exact absurd empty inhabited
  · exact main

/-- A run of a flow whose root is waited for ends with a success or as unstable, unless it ends with
an error. A root that has failed is told as an error after which a retry may help. -/
theorem run_verdict {flow flow' : Flow} {host host' : Host} {answer : Except Halt BuildResult}
    (fresh : flow.root.IsFresh) (quiet : host.Quiet) (alive : flow.config.killAll = false)
    (works : flow.config.justDump = false) (inhabited : flow.root.children ≠ [])
    (checked : flow.root.standing.isUnchecked = false)
    (ran : run.run (flow, host) = (answer, flow', host')) :
    (∀ result, concluded? answer = some result → result = .success ∨ result = .unstable) ∧
      (flow'.root.result = .failure → answer = .error (.broken .ticks) ∨
        ∃ error, answer = .error (.error error) ∧ error.isRetryable) := by
  have concluding : ∀ {ended : Except Halt BuildResult} {state : Flow × Host},
      Concludes ended state.1.root → (conclude flow ended).Leads state fun answer next =>
        Concludes answer next.1.root := by
    intro ended state concludes
    apply leads_conclude
    · rintro halt rfl there -
      exact concludes
    · rintro result rfl there -
      refine ⟨concludes, concludes.verdict, fun failed => ?_⟩
      rcases concludes.failed failed with broken | ⟨error, raised, -⟩
      · cases broken
      · cases raised
  have runs : (run : Step BuildResult).Leads (flow, host) fun answer state =>
      Concludes answer state.1.root := by
    apply leads_run_of_main quiet alive works inhabited
    · intro _ fault there
      have unknown : flow.root.result = .unknown := Tree.result_of_fresh fresh
      exact concludes_of_halt nofun (by simp [unknown])
    · intro there quiet _ _
      rw [mainRun_eq, leads_bind, leads_outcome]
      apply (leads_drive_concludes quiet fresh inhabited checked).mono
      exact fun _ _ concludes => concluding concludes
  have concludes := runs.ran ran
  exact ⟨concludes.verdict, concludes.failed⟩

/-- An invocation in a root that counts its failures in this way. -/
def singleFlow (propagation : Propagation) : Flow :=
  .ofTree (.ofChildren true (.fresh 0 0 1 1 propagation) [
    .ofJob (.fresh 1 1 1 1 propagation) "build"])

def failingHost : Host := .ofPlans [{ name := "build", maxFails := 1 }]

set_option maxRecDepth 100000 in
theorem run_verdict_failure : ∃ (error : FlowError) (flow' : Flow) (host' : Host),
    run.run (singleFlow .normal, failingHost) = (.error (.error error), flow', host') ∧
    flow'.root.result = .failure ∧ error.isRetryable := by
  have failed : (run.run (singleFlow .normal, failingHost)).2.1.root.result = .failure := by
    decide +kernel
  have timely : (run.run (singleFlow .normal, failingHost)).1 ≠ .error (.broken .ticks) := by
    decide +kernel
  generalize ran : run.run (singleFlow .normal, failingHost) = out at failed timely
  obtain ⟨answer, flow', host'⟩ := out
  have fresh : (singleFlow .normal).root.IsFresh := rfl
  have inhabited : (singleFlow .normal).root.children ≠ [] := nofun
  obtain ⟨-, raises⟩ := run_verdict fresh (Host.quiet_start _ _ _) rfl rfl inhabited rfl ran
  obtain ⟨error, rfl, retryable⟩ := (raises failed).resolve_left timely
  exact ⟨error, flow', host', rfl, failed, retryable⟩

set_option maxRecDepth 100000 in
/-- An unchecked root is not waited for: the run ends before its first sweep, and it tells a result
that there is not. -/
theorem run_unresolved : (singleFlow .unchecked).root.IsFresh ∧ failingHost.Quiet ∧
    (singleFlow .unchecked).root.children ≠ [] ∧
    ∃ (answer : Except Halt BuildResult) (flow' : Flow) (host' : Host),
      run.run (singleFlow .unchecked, failingHost) = (answer, flow', host') ∧
      concluded? answer = some .unknown ∧ host'.runner.order = [] := by
  refine ⟨rfl, Host.quiet_start _ _ _, nofun, ?_⟩
  have unknown : concluded? (run.run (singleFlow .unchecked, failingHost)).1 = some .unknown := by
    decide +kernel
  have unbuilt : (run.run (singleFlow .unchecked, failingHost)).2.2.runner.order = [] := by
    decide +kernel
  generalize run.run (singleFlow .unchecked, failingHost) = out at unknown unbuilt
  obtain ⟨answer, flow', host'⟩ := out
  exact ⟨answer, flow', host', rfl, unknown, unbuilt⟩

end Flow

end BuildFlow
