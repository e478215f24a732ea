import BuildFlow.Proofs.Attempts
import BuildFlow.Proofs.Draft.Fresh
import BuildFlow.Proofs.Flow.Wild
import BuildFlow.Proofs.Tree.Headroom
/-!
Runs whose counts of tries stay in range. If the tries and the restarts that a declared tree allows
leave room below the bound, no run overdraws a count, whatever happens to its builds and its host.
An abort gives a group all its tries at once, so that one more restart may overdraw the count of a
group whose own tries are just below the bound.
-/
namespace BuildFlow

open NodeAct Act

namespace Tree

theorem hasRoom_blank {node : Tree} : node.blank.HasRoom ↔ node.HasRoom := by
  cases node with
  | task => exact Iff.rfl
  | branch group children =>
      have peak : ∀ child : Tree, child.blank.standing.peak = child.standing.peak := by
        intro child
        cases child <;> rfl
      have tries : ∀ child : Tree, child.blank.standing.maxTries = child.standing.maxTries ∧
          child.blank.standing.totalMaxTries = child.standing.totalMaxTries := by
        intro child
        cases child <;> exact ⟨rfl, rfl⟩
      have ceiling : Branch.ceiling (children.map blank) = Branch.ceiling children := by
        simp [Branch.ceiling, Branch.outerTries, Branch.scopeTries, Function.comp_def, tries]
      have serial : group.blank.isSerial = group.isSerial := Group.isSerial_blank group
      simp [blank, blanks_eq, HasRoom, serial, peak, tries, ceiling]

/-- A prepared tree has the room that was declared. -/
theorem HasHeadroom.prepared {declared tree : Tree} (headroom : declared.HasHeadroom)
    (layout : tree.blank = declared) : tree.HasHeadroom := by
  rw [← layout] at headroom
  exact (every_blank.mp headroom).mono fun node room => hasRoom_blank.mp room

theorem roomy_of_primed {tree : Tree} (primed : tree.Every Primed) (headroom : tree.HasHeadroom) :
    tree.Every Roomy := by
  induction tree using childrenInduction with
  | leaf leaf => exact every_task.mpr trivial
  | branch group children ih =>
      have below := (every_branch.mp primed).2
      obtain ⟨room, others⟩ := every_branch.mp headroom
      refine every_branch.mpr ⟨?_, fun child member => ih child member (below child member)
        (others child member)⟩
      rw [HasRoom] at room
      rw [Roomy]
      split
      · next serial =>
          rw [if_pos serial] at room
          -- Nothing has been tried more than once, so all restarts that the bounds allow are to
          -- come.
          have spare := (restarts_of_primed below).2
          refine ⟨spare, room, fun child member => ?_⟩
          obtain ⟨tried, total, -⟩ := (below child member).self.counts
          have spent : child.standing.spent = 1 := by
            unfold Standing.spent
            rw [tried, total]
            rfl
          omega
      · next parallel =>
          rw [if_neg parallel] at room
          intro child member
          obtain ⟨tried, total, -⟩ := (below child member).self.counts
          obtain ⟨bounded, divides⟩ := room child member
          refine ⟨bounded, divides, within_of_primed (below child member).self, fun _ => ?_⟩
          rw [tried, total]
          exact ⟨Nat.le_refl 1, Nat.le_max_left _ _⟩

end Tree

namespace Flow

/-- All counts of the tree are such that sweeps keep them below their bound. -/
structure Steady (tree : Tree) : Prop where
  capped : tree.Every Tree.Capped
  roomy : tree.Every Tree.Roomy

/-- From a declared tree with headroom on, no phase of a run overdraws a count. -/
theorem phases_counted (settings : Settings) :
    Phases .any settings (fun tree => tree.IsFresh ∧ tree.HasHeadroom) Steady (fun _ => True)
      (fun _ => Halt.Counted) where
  prepares := by
    rintro sweep tree host - ⟨fresh, headroom⟩ -
    obtain ⟨ends, primed⟩ := Tree.prepareFirst_wild sweep fresh host
    refine ⟨trivial, ends.widen fun _ early => ⟨trivial, early.counted⟩, fun prepared => ?_⟩
    obtain ⟨layout, primed⟩ := primed prepared
    have primed := primed _ (List.mem_singleton_self _)
    have layout := (List.cons.inj layout).1
    exact ⟨Tree.capped_of_primed primed, Tree.roomy_of_primed primed (headroom.prepared layout)⟩
  sweeps := by
    rintro sweep tree host - unsettled steady -
    obtain ⟨ends, capped, roomy⟩ := Tree.check_steady sweep false host
      (Standing.unfinished unsettled) steady.capped steady.roomy
    exact ⟨trivial, ⟨capped, roomy⟩, ends⟩
  outlasts := fun _ _ => trivial
  begun := fun _ => trivial
  followed := fun _ => trivial
  foreign := Halt.Foreign.counted

/-- A scope of three tries. What comes first in it has so many tries of its own. -/
def scopedCommands (tries : Nat) : List Draft.Command := [
  .begin .root { maxTries := 3 } true,
  .begin ⟨1, 1⟩ { maxTries := tries, propagation := some .failureToUnstable } true,
  .invoke ⟨2, 2⟩ "probe" [] false,
  .close ⟨2, 2⟩,
  .invoke ⟨1, 1⟩ "deploy" [] false,
  .close ⟨1, 1⟩]

/-- The draft that these commands make of one without configuration. -/
def scopedDraft (tries : Nat) : Draft :=
  (Draft.performAll (scopedCommands tries) [] (Draft.plain, .ofPlans [])).2.1

def scopedTree (tries : Nat) : Tree :=
  Draft.withMessages (scopedDraft tries).messages (scopedDraft tries).innermost.toTree

theorem exists_scoped (tries : Nat) (closed : (scopedDraft tries).outer.length = 0) :
    ∃ log after, Draft.Session {} {} true log (scopedDraft tries) ∧
      Draft.finish.run (scopedDraft tries, .ofPlans []) = (.ok (scopedTree tries), after) := by
  unfold scopedTree scopedDraft at *
  exact Draft.session_plain.exists_finished (scopedCommands tries) (.ofPlans []) closed

/-- What comes first is aborted, and what follows it fails at first. -/
def interruptedHost : Host :=
  .ofPlans [{ name := "probe", maxFails := 1, failResult := .aborted },
    { name := "deploy", maxFails := 1 }]

end Flow

end BuildFlow
