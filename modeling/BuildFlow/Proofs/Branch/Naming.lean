import BuildFlow.Proofs.Branch.Safe
import BuildFlow.Proofs.Tree.Sound
/-!
Whom a group names when it fails. A serial group names the first of the children in reach with the
least result, as they stand at the end of the sweep; a parallel group lists all children that it keeps
as failed. Nothing else that happens in a sweep is told as the failure of the group.
-/
namespace BuildFlow

open NodeAct Act

namespace Branch

/-! ## The failure that is told -/

/-- What a serial group tells when it has failed. -/
def failure (branch : Branch) : JobFailure :=
  .serial branch.sequence (((branch.worstChild branch.reach).map Tree.sequence).getD "")
    branch.1.standing.propagation branch.1.aborted

/-- What a parallel group tells when it has failed. -/
def failures (branch : Branch) : JobFailure :=
  .parallel branch.sequence branch.1.failed.values branch.1.standing.propagation branch.1.aborted

/-! ## The end of a sweep -/

theorem leads_advance_names (sweep : Sweep) (branch : Branch) (host : Host) :
    (advance sweep : Step Unit).Leads (branch, host) fun answer state =>
      ∀ failure, answer = failedBy failure → failure = state.1.failure := by
  unfold advance
  rw [leads_bind, leads_node]
  dsimp only
  rw [leads_bind, leads_setStanding]
  dsimp only
  split
  · rw [leads_bind]
    apply leads_reportResult
    rintro after - - failure ⟨⟩
    rfl
  · rw [leads_bind, leads_setGroup]
    dsimp only
    split
    · exact fun failure same => by cases same
    · apply leads_reportResult
      exact fun after _ _ failure same => by cases same

/-- A timeout is no failure that is told to a parent. -/
theorem leads_timed_names {sweep : Sweep} {settling : Step Unit} {state : Branch × Host}
    {tells : Branch → JobFailure}
    (settles : settling.Leads state fun answer state =>
      ∀ failure, answer = failedBy failure → failure = tells state.1) (pending : Bool) :
    (if pending then checkTimeout sweep else settling : Step Unit).Leads state fun answer state =>
      ∀ failure, answer = failedBy failure → failure = tells state.1 := by
  cases pending with
  | true =>
      have times : SafeFor .any (Each Any) Halt.Hard (checkTimeout sweep) := safe_checkTimeout
      apply (times state ⟨fun _ _ => trivial, trivial⟩).mono
      rintro answer state ⟨-, hard⟩ failure rfl
      exact absurd rfl (hard _ rfl failure)
  | false => exact settles

/-- Where a sweep over a serial group tells a failure, it is that of the group as the sweep has left
it. -/
theorem leads_checkSerial_names (sweep : Sweep) (visit : Bool → Visit Tree) (branch : Branch)
    (host : Host) :
    (checkSerial sweep visit : Step Unit).Leads (branch, host) fun answer state =>
      ∀ failure, answer = failedBy failure → failure = state.1.failure := by
  unfold checkSerial
  rw [leads_bind]
  apply leads_beginSweep.mono
  rintro answer ⟨begun, there⟩ ⟨-, -, -, report, rfl⟩
  dsimp only
  rw [leads_bind, leads_node]
  dsimp only
  rw [leads_bind]
  apply (safe_serialPass Tree.outlasts_any (keeps_any (visit report)) _ _ (begun, there)
    ⟨fun _ _ => trivial, trivial⟩).mono
  rintro answer ⟨passed, after⟩ ⟨-, hard⟩
  cases answer with
  | error halt =>
      rintro failure ⟨⟩
      exact absurd rfl (hard _ rfl failure)
  | ok status =>
      dsimp only
      rw [leads_bind, leads_setStanding]
      dsimp only
      rw [leads_bind, leads_node]
      exact leads_timed_names (leads_advance_names sweep _ after) _

theorem leads_settle_names (sweep : Sweep) (branch : Branch) (host : Host) :
    (settle sweep : Step Unit).Leads (branch, host) fun answer state =>
      ∀ failure, answer = failedBy failure → failure = state.1.failures := by
  unfold settle
  rw [leads_bind, leads_node]
  dsimp only
  rw [leads_bind, leads_setStanding]
  dsimp only
  rw [leads_bind]
  apply leads_reportResult
  intro after _ _
  dsimp only
  split
  · rintro failure ⟨⟩
    rfl
  · exact fun failure same => by cases same

/-- Where a sweep over a parallel group tells a failure, it is that of the group as the sweep has
left it. -/
theorem leads_checkParallel_names (sweep : Sweep) (visit : Bool → Visit Tree) (branch : Branch)
    (host : Host) :
    (checkParallel sweep visit : Step Unit).Leads (branch, host) fun answer state =>
      ∀ failure, answer = failedBy failure → failure = state.1.failures := by
  unfold checkParallel
  rw [leads_bind]
  apply leads_beginSweep.mono
  rintro answer ⟨begun, there⟩ ⟨-, -, -, report, rfl⟩
  dsimp only
  rw [leads_bind, leads_node]
  dsimp only
  rw [leads_bind]
  apply (safe_parallelPass Tree.outlasts_any (keeps_any (visit report)) _ _ (begun, there)
    ⟨fun _ _ => trivial, trivial⟩).mono
  rintro answer ⟨passed, after⟩ ⟨-, hard⟩
  cases answer with
  | error halt =>
      rintro failure ⟨⟩
      exact absurd rfl (hard _ rfl failure)
  | ok status =>
      dsimp only
      rw [leads_bind, leads_setGroup]
      dsimp only
      rw [leads_bind, leads_node]
      exact leads_timed_names (leads_settle_names sweep _ after) _

/-! ## The first child with the least result -/

theorem failure_le (result : BuildResult) : BuildResult.failure ≤ result := Nat.zero_le _

theorem not_le_failure {result : BuildResult} (fine : result ≠ .failure) :
    ¬ result ≤ BuildResult.failure := by
  cases result with
  | failure => exact absurd rfl fine
  | _ => decide

/-- Among children of which some look like failures, the first of these is the worst. -/
theorem worstOf_of_failure {before after : List Tree} {child : Tree}
    (fine : ∀ other ∈ before, other.standing.propagatedResult ≠ .failure)
    (failed : child.standing.propagatedResult = .failure) :
    worstOf (before ++ child :: after) = some child := by
  induction before with
  | nil =>
      rw [List.nil_append, worstOf]
      cases worstOf after with
      | none => rfl
      | some other =>
          dsimp only
          rw [failed, if_pos (failure_le _)]
  | cons other rest ih =>
      rw [List.cons_append, worstOf, ih fun other member => fine other (List.mem_cons_of_mem _ member)]
      dsimp only
      rw [failed, if_neg (not_le_failure (fine other List.mem_cons_self))]

/-- The worst of the first children is the one at a place before which nothing looks like a
failure. -/
theorem worstChild_of_failure {branch : Branch} {count index : Nat} {child : Tree}
    (here : branch.2[index]? = some child) (inside : index < count)
    (fine : ∀ other ∈ branch.2.take index, other.standing.propagatedResult ≠ .failure)
    (failed : child.standing.propagatedResult = .failure) :
    branch.worstChild count = some child := by
  have splits : branch.2.take count = branch.2.take index ++
      child :: (branch.2.take count).drop (index + 1) := by
    have reached : (branch.2.take count)[index]? = some child :=
      (List.getElem?_take_of_lt inside).trans here
    have first : (branch.2.take count).take index = branch.2.take index := by
      rw [List.take_take, Nat.min_eq_left (Nat.le_of_lt inside)]
    obtain ⟨bound, same⟩ := List.getElem?_eq_some_iff.mp reached
    rw [← first, ← same, ← List.drop_eq_getElem_cons bound, List.take_append_drop]
  unfold worstChild
  rw [show branch.children = branch.2 from rfl, splits]
  exact worstOf_of_failure fine failed

end Branch

end BuildFlow
