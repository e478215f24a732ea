import BuildFlow.Proofs.Safe
import BuildFlow.Proofs.Branch.Check
/-!
What a sweep over a group keeps on any host, given what the visits to its children keep: what holds
of all children, if it outlasts new attempts, and what holds of the record. Failures of children are
taken as answers, so that only the end of the sweep tells one.
-/
namespace BuildFlow

open NodeAct Act

/-- Any end but a failure that a parent may answer. -/
def Halt.Hard (halt : Halt) : Prop := ∀ failure, halt ≠ .error (.failed failure)

/-- What holds of a node still does when another attempt is made, or when the node is taken for
finished. -/
structure Tree.Outlasts (p : Tree → Prop) : Prop where
  prepares : ∀ {child : Tree} (scope : Bool), p child → p (child.prepare scope)
  finishes : ∀ {child : Tree}, p child → p child.finish

theorem Tree.outlasts_any : Outlasts Any := ⟨fun _ _ => trivial, fun _ => trivial⟩

/-- Visits keep what holds of the node and of the record. -/
def Visit.Keeps {ν : Type} (ledger : Ledger) (p : ν → Prop) (visit : Visit ν) : Prop :=
  ∀ node (host : Host), p node → ledger.holds host.trace →
    p (visit node host).2.1 ∧ ledger.holds (visit node host).2.2.trace

theorem NodeAct.keeps_visit {ν : Type} {ledger : Ledger} {p : ν → Prop} {allows : Halt → Prop}
    {action : NodeAct ν Unit} (safe : SafeFor ledger p allows action) :
    (NodeAct.visit action).Keeps ledger p :=
  fun node host fits kept => (safe (node, host) ⟨fits, kept⟩).1

theorem keeps_any {ν : Type} (visit : Visit ν) : visit.Keeps .any Any :=
  fun _ _ _ _ => ⟨trivial, trivial⟩

namespace Branch

/-- Something holds of all children. -/
def Each (p : Tree → Prop) (branch : Branch) : Prop := ∀ child ∈ branch.2, p child

theorem Each.set {p : Tree → Prop} {branch : Branch} (each : Each p branch) (index : Nat)
    {child : Tree} (fits : p child) : Each p (branch.1, branch.2.set index child) := by
  intro other member
  rcases List.mem_or_eq_of_mem_set member with old | same
  · exact each other old
  · exact same ▸ fits

/-- A child that was just visited, or the one before if there is none. -/
theorem Each.current {p : Tree → Prop} {branch : Branch} (each : Each p branch) (index : Nat)
    {child : Tree} (fits : p child) : p ((branch.2[index]?).getD child) := by
  cases here : branch.2[index]? with
  | none => exact fits
  | some other => exact each other (List.mem_of_getElem? here)

variable {ledger : Ledger} {p : Tree → Prop} {allows : Halt → Prop} {sweep : Sweep}

theorem hard_breakUnless (fits : Bool) (broken : Breakdown) :
    Safe (fun host : Host => ledger.holds host.trace) Halt.Hard
      (Host.breakUnless fits broken) := by
  cases fits with
  | true => exact safe_pure _
  | false => exact safe_throw nofun

theorem safe_setGroup (f : Group → Group) :
    SafeFor ledger (Each p) allows (setGroup f : Step Unit) :=
  safe_modifyNode fun _ kept => kept

theorem safe_setChild (index : Nat) {child : Tree} (fits : p child) :
    SafeFor ledger (Each p) allows (setChild index child : Step Unit) :=
  safe_modifyNode fun _ each => each.set index fits

/-! ## Answers -/

section

variable (lasts : Tree.Outlasts p)
include lasts

theorem safe_restart (newScope : Bool) :
    SafeFor ledger (Each p) Halt.Hard (restart newScope) := by
  apply safe_node_bind
  intro branch each
  refine (safe_onHost (hard_breakUnless _ _)).bind fun _ => safe_setNode fun child member => ?_
  rcases List.mem_append.mp member with again | behind
  · obtain ⟨old, reached, rfl⟩ := List.mem_map.mp again
    exact lasts.prepares newScope (each old (List.mem_of_mem_take reached))
  · exact each child (List.mem_of_mem_drop behind)

theorem safe_answerFailure (index : Nat) {child : Tree} (fits : p child) (failure : JobFailure) :
    SafeFor ledger (Each p) Halt.Hard (answerFailure index child failure) := by
  have leaves : SafeFor ledger (Each p) Halt.Hard leave := safe_modifyNode fun _ each => each
  have marks : SafeFor ledger (Each p) Halt.Hard markAborted := safe_setGroup _
  have ends : SafeFor ledger (Each p) Halt.Hard (setChild index child.finish) :=
    safe_setChild index (lasts.finishes fits)
  -- The cases follow the code: an abort, tries in the own scope, tries in an outer one, none.
  apply safe_ite
  · apply (safe_log _ _ _).bind
    intro _
    apply ends.bind
    intro _
    dsimp only
    apply safe_ite
    · exact safe_pure _
    · exact marks.bind fun _ => leaves.bind fun _ => safe_pure _
  apply safe_ite
  · apply safe_ite
    · exact (safe_log _ _ _).bind fun _ => safe_pure _
    · exact (safe_log _ _ _).bind fun _ => (safe_restart lasts _).bind fun _ => safe_pure _
  apply safe_ite
  · apply safe_ite
    · exact (safe_log _ _ _).bind fun _ => safe_pure _
    · exact (safe_log _ _ _).bind fun _ => (safe_restart lasts _).bind fun _ => safe_pure _
  · apply ends.bind
    intro _
    dsimp only
    apply safe_ite
    · exact safe_pure _
    · exact leaves.bind fun _ => safe_pure _

theorem safe_prepareChild (index : Nat) {child : Tree} (fits : p child) (newScope : Bool) :
    SafeFor ledger (Each p) Halt.Hard (prepareChild index child newScope) :=
  (safe_onHost (hard_breakUnless _ _)).bind fun _ =>
    safe_setChild index (lasts.prepares newScope fits)

theorem safe_answerInPlace (index : Nat) {child : Tree} (fits : p child) (failure : JobFailure) :
    SafeFor ledger (Each p) Halt.Hard (answerInPlace index child failure) := by
  have ends : SafeFor ledger (Each p) Halt.Hard (setChild index child.finish) :=
    safe_setChild index (lasts.finishes fits)
  apply (safe_setGroup _).bind
  intro _
  apply safe_ite
  · apply (safe_log _ _ _).bind
    intro _
    apply ends.bind
    intro _
    dsimp only
    apply safe_ite
    · exact safe_pure _
    · exact (safe_setGroup _).bind fun _ => safe_pure _
  apply safe_ite
  · exact (safe_log _ _ _).bind fun _ =>
      (safe_prepareChild lasts index fits _).bind fun _ => safe_pure _
  apply safe_ite
  · exact (safe_log _ _ _).bind fun _ =>
      (safe_prepareChild lasts index fits _).bind fun _ => safe_pure _
  · exact ends.bind fun _ => safe_pure _

end

/-! ## Passes -/

theorem safe_visitChild {visit : Visit Tree} (keeps : visit.Keeps ledger p) (index : Nat)
    {child : Tree} (fits : p child) :
    SafeFor ledger (Each p) Halt.Hard (visitChild visit index child) := by
  apply safe_node_bind
  rintro ⟨group, children⟩ each
  rintro state ⟨-, kept⟩
  obtain ⟨fits, kept⟩ := keeps child state.2 fits kept
  have each : Each p (group, children.set index (visit child state.2).2.1) := each.set index fits
  rw [leads_failure?]
  unfold Leads
  dsimp only
  split
  · exact ⟨⟨each, kept⟩, ends_ok _⟩
  · exact ⟨⟨each, kept⟩, ends_ok _⟩
  · next hard _ =>
      apply And.intro ⟨each, kept⟩
      apply ends_error
      exact fun failure same => hard failure same

/-- Passes of either discipline keep what the visits and the answers keep. -/
theorem safe_passWith {clear : Tree → Step Unit} {answer : Nat → Tree → JobFailure → Step Bool}
    {visit : Visit Tree} (keeps : visit.Keeps ledger p)
    (clears : ∀ child, SafeFor ledger (Each p) Halt.Hard (clear child))
    (answers : ∀ index child failure, p child →
      SafeFor ledger (Each p) Halt.Hard (answer index child failure))
    (indices : List Nat) (status : Checking) :
    SafeFor ledger (Each p) Halt.Hard (passWith clear answer visit indices status) := by
  induction indices generalizing status with
  | nil => exact safe_pure _
  | cons index rest ih =>
      apply safe_node_bind
      intro branch each
      split
      · exact ih status
      · next child here =>
          apply safe_ite (ih status)
          have fits := each child (List.mem_of_getElem? here)
          apply (safe_visitChild keeps index fits).bind
          intro failure
          apply safe_node_bind
          intro visited each
          have fits := each.current index fits
          dsimp only
          split
          · exact (clears _).bind fun _ => ih _
          · apply (answers index _ _ fits).bind
            intro again
            split
            · exact ih _
            · exact ih status

section

variable (lasts : Tree.Outlasts p) {visit : Visit Tree} (keeps : visit.Keeps ledger p)
  (indices : List Nat) (status : Checking)
include lasts keeps

theorem safe_serialPass :
    SafeFor ledger (Each p) Halt.Hard (serialPass visit indices status) := by
  rw [serialPass_eq]
  exact safe_passWith keeps (fun _ => safe_pure _)
    (fun index _ failure fits => safe_answerFailure lasts index fits failure) indices status

theorem safe_parallelPass :
    SafeFor ledger (Each p) Halt.Hard (parallelPass visit indices status) := by
  rw [parallelPass_eq]
  have clears : ∀ child, SafeFor ledger (Each p) Halt.Hard (clearFailed child) :=
    fun child => safe_setGroup _
  exact safe_passWith keeps clears
    (fun index _ failure fits => safe_answerInPlace lasts index fits failure) indices status

end

/-! ## Sweeps -/

theorem safe_beginSweep : SafeFor ledger (Each p) allows (beginSweep sweep : Step Bool) := by
  apply safe_node_bind
  intro branch _
  have reports : SafeFor ledger (Each p) allows (do
      let report := branch.group.reportInterval ≤ sweep.now.secondsSince branch.group.lastReport
      if report then
        setGroup fun group => { group with lastReport := sweep.now }
        return true
      else return false : Step Bool) :=
    safe_ite ((safe_setGroup _).bind fun _ => safe_pure _) (safe_pure _)
  apply safe_ite reports
  apply (safe_setGroup _).bind
  intro _
  exact (safe_onHost (Standing.safe_announce _ _ _)).bind fun _ => reports

theorem safe_checkTimeout : SafeFor ledger (Each p) Halt.Hard (checkTimeout sweep) :=
  safe_node_bind fun _ _ => safe_ite (safe_throw nofun) (safe_pure _)

theorem safe_reportResult : SafeFor ledger (Each p) allows (reportResult sweep : Step Unit) :=
  safe_node_bind fun _ _ => safe_log _ _ _

/-- The end of a sweep may tell a failure. -/
def Anyhow (_halt : Halt) : Prop := True

theorem safe_settle : SafeFor ledger (Each p) Anyhow (settle sweep) := by
  apply safe_node_bind
  intro branch _
  apply (safe_setGroup _).bind
  intro _
  apply safe_reportResult.bind
  intro _
  exact safe_ite (safe_throw trivial) (safe_pure _)

theorem safe_advance : SafeFor ledger (Each p) Anyhow (advance sweep) := by
  apply safe_node_bind
  intro branch _
  apply (safe_setGroup _).bind
  intro _
  apply safe_ite
  · exact safe_reportResult.bind fun _ => safe_throw trivial
  · apply (safe_setGroup _).bind
    intro _
    exact safe_ite (safe_setGroup _) safe_reportResult

section

variable (lasts : Tree.Outlasts p) {visit : Bool → Visit Tree}
  (keeps : ∀ report, (visit report).Keeps ledger p)
include lasts keeps

theorem safe_checkSerial : SafeFor ledger (Each p) Anyhow (checkSerial sweep visit) := by
  apply safe_beginSweep.bind
  intro report
  apply safe_node_bind
  intro branch _
  apply ((safe_serialPass lasts (keeps report) _ _).widen fun _ _ => trivial).bind
  intro status
  apply (safe_setGroup _).bind
  intro _
  apply safe_node_bind
  intro branch _
  exact safe_ite (safe_checkTimeout.widen fun _ _ => trivial) safe_advance

theorem safe_checkParallel : SafeFor ledger (Each p) Anyhow (checkParallel sweep visit) := by
  apply safe_beginSweep.bind
  intro report
  apply safe_node_bind
  intro branch _
  apply ((safe_parallelPass lasts (keeps report) _ _).widen fun _ _ => trivial).bind
  intro status
  apply (safe_setGroup _).bind
  intro _
  apply safe_node_bind
  intro branch _
  exact safe_ite (safe_checkTimeout.widen fun _ _ => trivial) safe_settle

end

end Branch

end BuildFlow
