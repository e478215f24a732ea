import BuildFlow.Proofs.Branch.Check
import BuildFlow.Sweep.Check
/-!
Sweeps over whole trees as a relation, and the rule by which something is shown
of every sweep: it holds of the steps of invocations, and of a group if it holds
of the visits to its children.
-/
namespace BuildFlow

namespace Branch

/-! ## Rules for passes -/

variable {now : Instant} {course wider : Course Tree}

theorem Pass.mono (widens : ∀ {child world answer next after},
      course child world answer next after → wider child world answer next after)
    {indices : List Nat} {branch last : Branch} {world after : World} {status : Checking}
    {answer : Except Halt Checking}
    (pass : Pass course indices branch world status answer last after) :
    Pass wider indices branch world status answer last after := by
  induction pass with
  | done => exact .done
  | skips finished _ ih => exact .skips finished ih
  | passes here unfinished visit _ ih => exact .passes here unfinished (widens visit) ih
  | fails here unfinished visit answers _ ih =>
      exact .fails here unfinished (widens visit) answers ih
  | breaks here unfinished visit answers =>
      exact .breaks here unfinished (widens visit) answers
  | halts here unfinished visit hard => exact .halts here unfinished (widens visit) hard

theorem Sweeps.mono (widens : ∀ {child world answer next after},
      course child world answer next after → wider child world answer next after)
    {branch last : Branch} {world after : World} {answer : Except Halt Unit}
    (sweeps : Sweeps now course branch world answer last after) :
    Sweeps now wider branch world answer last after := by
  cases sweeps with
  | halts pass => exact .halts (pass.mono widens)
  | closes pass closes => exact .closes (pass.mono widens) closes

/-- What every visit and every answer keeps is kept by a pass. -/
theorem Pass.keeps {p : Branch → World → Prop}
    (visits : ∀ {index branch world answer child next there}, p branch world →
      branch.2[index]? = some child → child.standing.isFinished = false →
      course child world answer next there → p (branch.put index next) there)
    (clears : ∀ {branch world child}, p branch world → p (branch.cleared child) world)
    (answers : ∀ {index branch world child failure answer next}, p branch world →
      branch.2[index]? = some child → Answers branch index child failure answer next →
      p next world)
    {indices : List Nat} {branch last : Branch} {world after : World} {status : Checking}
    {answer : Except Halt Checking}
    (pass : Pass course indices branch world status answer last after)
    (start : p branch world) : p last after := by
  induction pass with
  | done => exact start
  | skips _ _ ih => exact ih start
  | passes here unfinished visit _ ih => exact ih (clears (visits start here unfinished visit))
  | fails here unfinished visit answered _ ih =>
      exact ih (answers (visits start here unfinished visit) (getElem?_put_self here _) answered)
  | breaks here unfinished visit answered =>
      exact answers (visits start here unfinished visit) (getElem?_put_self here _) answered
  | halts here unfinished visit _ => exact visits start here unfinished visit

theorem Pass.isSerial {indices : List Nat} {branch last : Branch} {world after : World}
    {status : Checking} {answer : Except Halt Checking}
    (pass : Pass course indices branch world status answer last after) :
    last.1.isSerial = branch.1.isSerial :=
  pass.keeps (p := fun middle _ => middle.1.isSerial = branch.1.isSerial)
    (fun same _ _ _ => same) (fun same => (Group.isSerial_setFailed _ _).trans same)
    (fun same _ answers => answers.isSerial.trans same) rfl

/-- What every visit hands on to the places that are left holds where a pass that comes
to its end has no place left. -/
theorem Pass.arrives {p : List Nat → Branch → World → Checking → Prop}
    (skips : ∀ {index rest branch world status}, p (index :: rest) branch world status →
      (∀ child, branch.2[index]? = some child → child.standing.isFinished) →
      p rest branch world status)
    (passes : ∀ {index rest branch world status child next there},
      p (index :: rest) branch world status → branch.2[index]? = some child →
      child.standing.isFinished = false → course child world (.ok ()) next there →
      p rest ((branch.put index next).cleared next) there
        (min status next.standing.propagatedChecking))
    (fails : ∀ {index rest branch world status child next there failure again answered},
      p (index :: rest) branch world status → branch.2[index]? = some child →
      child.standing.isFinished = false → course child world (failedBy failure) next there →
      Answers (branch.put index next) index next failure (.ok again) answered →
      p rest answered there (if again then .mustCheck else status))
    {indices : List Nat} {branch last : Branch} {world after : World} {status final : Checking}
    (pass : Pass course indices branch world status (.ok final) last after)
    (start : p indices branch world status) : p [] last after final := by
  generalize ended : Except.ok final = answer at pass
  induction pass with
  | done =>
      cases ended
      exact start
  | skips finished _ ih => exact ih (skips start finished) ended
  | passes here unfinished visit _ ih => exact ih (passes start here unfinished visit) ended
  | fails here unfinished visit answers _ ih =>
      exact ih (fails start here unfinished visit answers) ended
  | breaks => cases ended
  | halts => cases ended

/-- What every visit carries over together with its answer is carried over by a
pass that comes to its end. -/
theorem Pass.carries {p : Branch → World → Checking → Prop}
    (passes : ∀ {index branch world status child next there}, p branch world status →
      branch.2[index]? = some child → child.standing.isFinished = false →
      course child world (.ok ()) next there →
      p ((branch.put index next).cleared next) there
        (min status next.standing.propagatedChecking))
    (fails : ∀ {index branch world status child next there failure again answered},
      p branch world status → branch.2[index]? = some child →
      child.standing.isFinished = false → course child world (failedBy failure) next there →
      Answers (branch.put index next) index next failure (.ok again) answered →
      p answered there (if again then .mustCheck else status))
    {indices : List Nat} {branch last : Branch} {world after : World} {status final : Checking}
    (pass : Pass course indices branch world status (.ok final) last after)
    (start : p branch world status) : p last after final :=
  pass.arrives (p := fun _ => p) (fun start _ => start) passes fails start

end Branch

namespace Tree

open NodeAct Act

/-! ## Sweeps -/

/-- Where a sweep over a tree of so many levels of groups leads. -/
def SweepsIn (now : Instant) : Nat → Course Tree
  | _, .task leaf, world, answer, next, after =>
      ∃ leaf', next = .task leaf' ∧ leaf.Follows now world answer leaf' after
  | 0, .branch _ _, _, _, _, _ => False
  | levels + 1, .branch group children, world, answer, next, after =>
      ∃ group' children', next = .branch group' children' ∧
        Branch.Sweeps now (SweepsIn now levels) (group, children) world answer
          (group', children') after

/-- Where one sweep over a tree leads. -/
def Sweeps (now : Instant) : Course Tree := fun tree world answer next after =>
  ∃ levels, SweepsIn now levels tree world answer next after

theorem heightOf_le {levels : Nat} {children : List Tree} :
    heightOf children ≤ levels ↔ ∀ child ∈ children, child.height ≤ levels := by
  induction children with
  | nil => simp [heightOf]
  | cons child rest ih => rw [heightOf, List.forall_mem_cons, Nat.max_le, ih]

/-- The visits of a sweep lead where `course` says if those to invocations do, and those to a group
as long as the visits to its children do. -/
theorem soundFor_checkWithin (manner : Host.Manner) (course : Nat → Course Tree) {sweep : Sweep}
    (leaf : ∀ (levels : Nat) (report : Bool) (leaf : Task) (host : Host), manner.fit host →
      manner.goes host (NodeAct.visit (Task.check sweep report) leaf host).2.2 ∧
        course levels (.task leaf) host.world (NodeAct.visit (Task.check sweep report) leaf host).1
          (.task (NodeAct.visit (Task.check sweep report) leaf host).2.1)
          (NodeAct.visit (Task.check sweep report) leaf host).2.2.world)
    (branch : ∀ (levels : Nat) (branch : Branch) (host : Host),
      (∀ report, Branch.SoundFor manner (course levels) levels (checkWithin sweep levels report)) →
      Branch.Low levels branch → manner.fit host →
      (if branch.1.isSerial then Branch.checkSerial sweep (checkWithin sweep levels)
        else Branch.checkParallel sweep (checkWithin sweep levels) : Branch.Step Unit).Leads
        (branch, host) fun answer state =>
          manner.goes host state.2 ∧ Branch.Low levels state.1 ∧
            course (levels + 1) (.branch branch.1 branch.2) host.world answer
              (.branch state.1.1 state.1.2) state.2.world)
    (levels : Nat) (report : Bool) :
    Branch.SoundFor manner (course levels) levels (checkWithin sweep levels report) := by
  -- By induction on the levels: all children of a group are visited at the level below.
  induction levels generalizing report with
  | zero =>
      intro tree host height fit
      cases tree with
      | task task =>
          obtain ⟨goes, led⟩ := leaf 0 report task host fit
          exact ⟨goes, led, Nat.le_refl 0⟩
      | branch group children => exact absurd height (by simp [Tree.height])
  | succ levels ih =>
      intro tree host height fit
      cases tree with
      | task task =>
          obtain ⟨goes, led⟩ := leaf (levels + 1) report task host fit
          exact ⟨goes, led, Nat.zero_le _⟩
      | branch group children =>
          have low : Branch.Low levels (group, children) :=
            heightOf_le.mp (Nat.le_of_succ_le_succ height)
          obtain ⟨goes, low, led⟩ := branch levels (group, children) host ih low fit
          exact ⟨goes, led, Nat.succ_le_succ (heightOf_le.mpr low)⟩

theorem checkWithin_sound (sweep : Sweep) (levels : Nat) (report : Bool) :
    Branch.Sound .quiet (SweepsIn sweep.now levels) levels (checkWithin sweep levels report) := by
  refine soundFor_checkWithin Host.Conduct.quiet.manner (SweepsIn sweep.now) ?_ ?_ levels report
  · intro levels report leaf host quiet
    obtain ⟨stays, follows⟩ := Task.leads_check leaf sweep quiet report
    exact ⟨stays, by cases levels <;> exact ⟨_, rfl, follows⟩⟩
  · intro levels branch host sound low quiet
    apply (Branch.leads_checkFor sound low quiet).mono
    exact fun _ _ ⟨stays, low, sweeps⟩ => ⟨stays, low, _, _, rfl, sweeps⟩

/-- On a quiet host a sweep leads where the relation says. -/
theorem check_sweeps (sweep : Sweep) (report : Bool) (tree : Tree) {host : Host}
    (quiet : host.Quiet) :
    Host.Stays host (check sweep report tree host).2.2 ∧
      Sweeps sweep.now tree host.world (check sweep report tree host).1
        (check sweep report tree host).2.1 (check sweep report tree host).2.2.world := by
  obtain ⟨stays, sweeps, -⟩ :=
    checkWithin_sound sweep tree.height report tree host (Nat.le_refl _) quiet
  exact ⟨stays, tree.height, sweeps⟩

/-- What holds of the steps of invocations, and of a group if it holds of the
visits to its children, holds of every sweep. -/
theorem Sweeps.rule {now : Instant} {p : Course Tree}
    (leaf : ∀ {leaf world answer leaf' after}, Task.Follows now leaf world answer leaf' after →
      p (.task leaf) world answer (.task leaf') after)
    (branch : ∀ {group children world answer group' children' after},
      Branch.Sweeps now (fun child world answer next after =>
          Sweeps now child world answer next after ∧ p child world answer next after)
        (group, children) world answer (group', children') after →
      p (.branch group children) world answer (.branch group' children') after)
    {tree next : Tree} {world after : World} {answer : Except Halt Unit}
    (sweeps : Sweeps now tree world answer next after) : p tree world answer next after := by
  obtain ⟨levels, sweeps⟩ := sweeps
  induction levels generalizing tree world answer next after with
  | zero =>
      cases tree with
      | task => obtain ⟨leaf', rfl, follows⟩ := sweeps; exact leaf follows
      | branch => exact sweeps.elim
  | succ levels ih =>
      cases tree with
      | task => obtain ⟨leaf', rfl, follows⟩ := sweeps; exact leaf follows
      | branch =>
          obtain ⟨group', children', rfl, sweeps⟩ := sweeps
          exact branch (sweeps.mono fun visit => ⟨⟨levels, visit⟩, ih visit⟩)

theorem Sweeps.ofTask {now : Instant} {leaf : Task} {next : Tree} {world after : World}
    {answer : Except Halt Unit} (sweeps : Sweeps now (.task leaf) world answer next after) :
    ∃ leaf', next = .task leaf' ∧ leaf.Follows now world answer leaf' after := by
  obtain ⟨levels, sweeps⟩ := sweeps
  cases levels <;> exact sweeps

/-- A sweep over a group is one of its children. -/
theorem Sweeps.ofBranch {now : Instant} {group : Group} {children : List Tree} {next : Tree}
    {world after : World} {answer : Except Halt Unit}
    (sweeps : Sweeps now (.branch group children) world answer next after) :
    ∃ group' children', next = .branch group' children' ∧
      Branch.Sweeps now (Sweeps now) (group, children) world answer (group', children') after := by
  refine sweeps.rule (p := fun tree world answer next after => ∀ group children,
    tree = .branch group children → ∃ group' children', next = .branch group' children' ∧
      Branch.Sweeps now (Sweeps now) (group, children) world answer (group', children') after)
    ?_ ?_ group children rfl
  · intro leaf world answer leaf' after _ group children same
    cases same
  · intro group children world answer group' children' after sweeps other others same
    cases same
    exact ⟨group', children', rfl, sweeps.mono fun visit => visit.1⟩

end Tree

end BuildFlow
