import BuildFlow.Proofs.Order
import BuildFlow.Proofs.Tree.Charge
/-!
How often an invocation is tried in a run. Below a parallel group it starts no more
builds than its scopes allow together. Below a serial group the failures of the other
children count as well.
-/
namespace BuildFlow

namespace Tree

/-! ## Invocations with names of their own -/

def attempts (leaf : Task) : Nat :=
  leaf.standing.totalTried + if leaf.standing.isInvoked then 1 else 0

/-- A group whose first child is an invocation. -/
def lead? : Tree → Option (Group × Task)
  | .branch group (.task leaf :: _) => some (group, leaf)
  | _ => none

theorem branch_of_lead {tree : Tree} {group : Group} {leaf : Task}
    (leads : tree.lead? = some (group, leaf)) :
    tree = .branch group tree.children ∧ .task leaf ∈ tree.children := by
  unfold lead? at leads
  split at leads
  · cases leads
    exact ⟨rfl, List.mem_cons_self⟩
  · cases leads

theorem sum_charge (name : String) (tree : Tree) : tree.sum (charge name) =
    (tree.tasks.map fun leaf => if leaf.name = name then attempts leaf else 0).sum := by
  induction tree using childrenInduction with
  | leaf leaf => simp [tasks, charge, attempts]
  | branch group children ih =>
      rw [sum_branch, charge, Nat.zero_add, tasks]
      induction children with
      | nil => rfl
      | cons child rest ihRest =>
          have onward := ihRest fun other member => ih other (List.mem_cons_of_mem _ member)
          rw [tasksOf, List.map_cons, List.sum_cons, List.map_append, List.sum_append, onward,
            ih child List.mem_cons_self]

/-- A job that one invocation runs is charged to this one. -/
theorem sum_named {measure : Task → Nat} {leaves : List Task} {leaf : Task}
    (distinct : (leaves.map Task.name).Nodup) (member : leaf ∈ leaves) :
    (leaves.map fun other => if other.name = leaf.name then measure other else 0).sum =
      measure leaf := by
  induction leaves with
  | nil => cases member
  | cons first rest ih =>
      obtain ⟨apart, distinct⟩ := List.nodup_cons.mp distinct
      rw [List.map_cons, List.sum_cons]
      rcases List.mem_cons.mp member with same | later
      · subst same
        have others : (rest.map fun other => if other.name = leaf.name then measure other else 0).sum
            = 0 := by
          rw [List.sum_eq_zero]
          intro charged inside
          obtain ⟨other, among, rfl⟩ := List.mem_map.mp inside
          exact if_neg fun same => apart (List.mem_map.mpr ⟨other, among, same⟩)
        rw [others, if_pos rfl, Nat.add_zero]
      · have other : first.name ≠ leaf.name := fun same =>
          apart (List.mem_map.mpr ⟨leaf, later, same.symm⟩)
        rw [if_neg other, Nat.zero_add, ih distinct later]

/-- The attempts at a job that one invocation runs. -/
theorem charge_of_named {tree : Tree} (distinct : tree.names.Nodup) {leaf : Task}
    (inside : .task leaf ∈ tree.nodes) : tree.sum (charge leaf.name) = attempts leaf := by
  rw [sum_charge]
  exact sum_named distinct (mem_tasks.mpr inside)

/-! ## Before the first sweep -/

/-- Of the restarts that a serial group may have at most, one is left over. -/
theorem restarts_of_primed {children : List Tree}
    (primed : ∀ child ∈ children, child.Every Primed) :
    (∀ child ∈ children, child.standing.scopeLeft ≤ child.standing.maxTries - 1) ∧
      Branch.restarts children < Branch.ceiling children := by
  have left : ∀ child ∈ children,
      child.standing.scopeLeft = child.standing.maxTries - 1 ∧ child.standing.outerLeft ≤
        child.standing.totalMaxTries - child.standing.maxTries := by
    intro child member
    obtain ⟨tried, total, unknown, -⟩ := (primed child member).self.counts
    have awaited : child.standing.awaited = 1 := if_pos unknown
    unfold Standing.outerLeft Standing.totalLeft Standing.scopeLeft Standing.remainingTries
      Standing.remainingTotalTries
    rw [tried, total, awaited]
    omega
  have outer : Branch.outerSum children ≤ Branch.outerTries children :=
    List.sum_le_sum fun child member => (left child member).2
  have scope : Branch.scopeSum children ≤ Branch.scopeTries children :=
    List.sum_le_sum fun child member => Nat.le_of_eq (left child member).1
  constructor
  · exact fun child member => Nat.le_of_eq (left child member).1
  · have most := Nat.mul_le_mul_right (Branch.scopeTries children + 1) outer
    unfold Branch.restarts Branch.ceiling
    rw [Nat.succ_mul]
    omega

/-- A prepared group has all restarts to come. -/
theorem rationed_of_primed {children : List Tree}
    (primed : ∀ child ∈ children, child.Every Primed) : Branch.Rationed children := by
  obtain ⟨scope, fewer⟩ := restarts_of_primed primed
  constructor
  · exact scope
  · intro leaf member
    have total : leaf.standing.totalTried = 1 := (primed _ member).self.counts.2.1
    omega

theorem within_of_primed {tree : Tree} (primed : tree.Primed) : tree.standing.Within := by
  intro some' divides
  obtain ⟨tried, total, -⟩ := primed.counts
  have positive := Nat.pos_of_dvd_of_pos divides some'
  rw [tried, total]
  exact ⟨Nat.one_pos, positive, some', 0, rfl⟩

theorem capped_of_primed {tree : Tree} (primed : tree.Every Primed) : tree.Every Capped := by
  induction tree using childrenInduction with
  | leaf leaf => exact every_task.mpr fun _ => primed.self.counts.2.2.1
  | branch group children ih =>
      have below := (every_branch.mp primed).2
      refine every_branch.mpr ⟨?_, fun child member => ih child member (below child member)⟩
      rw [Capped]
      split
      · exact rationed_of_primed below
      · exact fun child member => within_of_primed (below child member).self

end Tree

namespace Flow

theorem Looped.charges {dir : Bool} {limit : Nat} {reads : Instant → Prop} {tree last : Tree}
    {world after : World} {answer : Except Halt Unit}
    (looped : Looped dir limit reads tree world answer last after)
    (set : ∀ now, reads now → now.isSet) (direct : Direct answer) (name : String) :
    tree.Charges name world last after := by
  have next : ∀ {tree last : Tree} {world after : World}, tree.Charges name world.next last after →
      tree.Charges name world last after := by
    intro tree last world after charges
    unfold Tree.Charges at charges ⊢
    rwa [show world.next.runner.buildsOf name = _ from Runner.buildsOf_next _ name] at charges
  induction looped with
  | settled => exact Nat.le_refl _
  | again _ read _ sweep _ ih =>
      have swept := next (sweep.charges (set _ read) nofun name)
      have onward := ih direct
      unfold Tree.Charges at *
      omega
  | broke _ read _ sweep => exact next (sweep.charges (set _ read) direct name)
  | refused => exact next (Nat.le_refl _)
  | overrun => exact Nat.le_refl _
  | unwritten _ _ read _ sweep => exact next (sweep.charges (set _ read) nofun name)

theorem Looped.capped {dir : Bool} {limit : Nat} {reads : Instant → Prop} {tree last : Tree}
    {world after : World} {answer : Except Halt Unit}
    (looped : Looped dir limit reads tree world answer last after) (capped : tree.Every Tree.Capped) :
    last.Every Tree.Capped := by
  induction looped with
  | settled => exact capped
  | again unsettled _ _ sweep _ ih =>
      exact ih (sweep.sparing (Standing.unfinished unsettled) capped).2
  | broke unsettled _ _ sweep => exact (sweep.sparing (Standing.unfinished unsettled) capped).2
  | refused => exact capped
  | overrun => exact capped
  | unwritten _ unsettled _ _ sweep =>
      exact (sweep.sparing (Standing.unfinished unsettled) capped).2

/-- The loop of a run starts no more builds of a job than its invocation was
attempted. -/
theorem Looped.attempted {dir : Bool} {limit : Nat} {reads : Instant → Prop} {tree last : Tree}
    {world after : World} {answer : Except Halt Unit}
    (looped : Looped dir limit reads tree world answer last after)
    (set : ∀ now, reads now → now.isSet) (direct : Direct answer)
    (ready : tree.Every (Tree.Ready world.runner))
    (distinct : tree.names.Nodup) {leaf : Task} (inside : .task leaf ∈ last.nodes) :
    (after.runner.buildsOf leaf.name).length ≤
      (world.runner.buildsOf leaf.name).length + leaf.standing.totalTried := by
  have charges := looped.charges set direct leaf.name
  have names := Tree.names_of_layout looped.blank
  have named : leaf.name ∈ tree.names :=
    names ▸ Tree.names_of_mem_nodes inside (List.mem_singleton_self _)
  obtain ⟨first, among, same⟩ := Tree.exists_of_mem_names named
  -- The attempt that stands before the loop has begun no build.
  have before : tree.sum (Tree.charge leaf.name) = 1 := by
    obtain ⟨-, total, -, uninvoked⟩ := Tree.counts_of_ready (Tree.every_task.mpr (ready _ among))
    rw [← same, Tree.charge_of_named distinct among, Tree.attempts]
    rw [show first.standing.totalTried = 1 from total, show first.standing.isInvoked = false from uninvoked]
    rfl
  have later : last.sum (Tree.charge leaf.name) ≤ leaf.standing.totalTried + 1 := by
    rw [Tree.charge_of_named (names ▸ distinct) inside, Tree.attempts]
    split <;> omega
  unfold Tree.Charges at charges
  omega

/-- What the invocation has built is within what its group allows it. -/
structure Affords (before after : Runner) (group : Group) (children : List Tree) (leaf : Task) :
    Prop where
  parallel : group.isSerial = false → 0 < leaf.standing.totalMaxTries →
    leaf.standing.maxTries ∣ leaf.standing.totalMaxTries →
      (before.newBuilds after leaf.name).length ≤ leaf.standing.totalMaxTries
  serial : group.isSerial → (before.newBuilds after leaf.name).length ≤ Branch.ceiling children

theorem affords_of_same {before after : Runner} {group : Group} {children : List Tree} {leaf : Task}
    (same : after.buildsOf leaf.name = before.buildsOf leaf.name) :
    Affords before after group children leaf := by
  have none : (before.newBuilds after leaf.name).length = 0 := by
    rw [Runner.newBuilds, same, List.drop_length]
    rfl
  constructor <;> intros <;> omega

theorem Driven.affords {config : RunConfig} {requireIdle : Bool} {limit : Nat}
    {reads : Instant → Prop} {tree last : Tree} {world after : World}
    {answer : Except Halt BuildResult}
    (driven : Driven config requireIdle limit reads tree world answer last after)
    (set : ∀ now, reads now → now.isSet) (direct : Direct answer) (distinct : tree.names.Nodup)
    {group : Group} {children : List Tree} (inside : .branch group children ∈ last.nodes)
    {leaf : Task} (member : .task leaf ∈ children) :
    Affords world.runner after.runner group children leaf := by
  cases driven with
  | unprepared prepared => exact affords_of_same (prepared.1.builds _)
  | unwritten prepared => exact affords_of_same (prepared.1.builds _)
  | unslept prepared => exact affords_of_same (prepared.1.builds _)
  | @looped first _ there _ ended _ prepared looped concluded =>
      obtain ⟨same, layout, ready⟩ := prepared
      have direct : Direct ended := by
        rintro halt rfl
        cases concluded with
        | halted => exact direct halt rfl
        | overrun => exact absurd trivial (direct _ rfl)
      have names : first.names = tree.names := by
        rw [← Tree.names_blank, layout]
      have below : .task leaf ∈ last.nodes :=
        Tree.mem_nodes_of_child inside member (Tree.self_mem_nodes _)
      have built := looped.attempted set direct ready (names ▸ distinct) below
      have capped := looped.capped (Tree.capped_of_primed (Tree.primed_of_ready ready)) _ inside
      -- No more builds were started than attempts were made, and the group bounds the attempts.
      have started : (world.runner.newBuilds after.runner leaf.name).length ≤
          leaf.standing.totalTried := by
        rw [same.builds] at built
        rw [Runner.newBuilds, List.length_drop]
        omega
      rw [Tree.Capped] at capped
      constructor
      · intro parallel some' divides
        rw [if_neg (by rw [parallel]; exact Bool.false_ne_true)] at capped
        exact Nat.le_trans started (capped _ member some' divides).2.2.1
      · intro serial
        rw [if_pos serial] at capped
        have := capped.tried leaf member
        omega

/-- Two invocations, one after the other, with two tries. -/
def sharedFlow : Flow :=
  .ofTree (.ofChildren true (.fresh 0 0 2 2 .normal) [
    .ofJob (.fresh 1 1 2 2 .normal) "build",
    .ofJob (.fresh 2 1 2 2 .normal) "deploy"])

/-- Each of the jobs fails once. -/
def sharedHost : Host :=
  .ofPlans [{ name := "build", maxFails := 1 }, { name := "deploy", maxFails := 1 }]

/-- Whether a line is on record. -/
def tells (host : Host) (line : String) : Bool :=
  host.trace.any fun event =>
    match event with
    | .log _ message _ => message == line
    | _ => false

end Flow

end BuildFlow
