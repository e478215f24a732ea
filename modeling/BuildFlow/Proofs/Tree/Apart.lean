import BuildFlow.Proofs.Tree.Gain
/-!
Builds below the children of a serial group. A sweep starts builds only below the child at the
cursor, when everything that was built below the other children has ended. So two builds
below different children lie apart in time, whichever of them comes first.
-/
namespace BuildFlow

/-! ## Builds -/

namespace Build

/-- The first build has ended when the second one enters the queue. -/
def Before (tick : Nat) (first second : Build) : Prop :=
  first.enqueuedAt < second.enqueuedAt ∧
    ∃ finish, first.finishedAt tick = some finish ∧ finish ≤ second.enqueuedAt

instance (tick : Nat) (first second : Build) : Decidable (first.Before tick second) :=
  decidable_of_iff (first.enqueuedAt < second.enqueuedAt ∧
    ∃ finish ∈ first.finishedAt tick, finish ≤ second.enqueuedAt) Iff.rfl

/-- A build of an earlier tick that nobody has ended early. -/
structure Past (tick : Nat) (build : Build) : Prop where
  unforced : build.forced = none
  early : build.enqueuedAt < tick

variable {first second : Build} {tick : Nat}

theorem Before.later (before : first.Before tick second) {after : Nat} (order : tick ≤ after) :
    first.Before after second := by
  obtain ⟨early, finish, finished, within⟩ := before
  refine ⟨early, finish, ?_, within⟩
  unfold finishedAt at finished ⊢
  split at finished
  · exact finished
  · split at finished
    · next ended => rw [if_pos (Nat.le_trans ended order), finished]
    · cases finished

theorem Past.before (past : first.Past tick) (idle : first.progress tick = .idle)
    (starts : second.enqueuedAt = tick) : first.Before tick second := by
  have status : first.status tick = (first.result tick, .idle) := Prod.ext rfl idle
  have ended := (status_unforced past.unforced status rfl).2
  refine ⟨starts ▸ past.early, first.endTick, ?_, starts ▸ ended⟩
  unfold finishedAt
  rw [past.unforced]
  exact if_pos ended

end Build

/-! ## Trees -/

/-- The builds below two children of a serial group lie apart in time. -/
def Tree.Apart (before after : Runner) : Tree → Prop
  | .task _ => True
  | .branch group children => group.isSerial → ∀ (i j : Nat) (first second : Tree), i < j →
      children[i]? = some first → children[j]? = some second →
      ∀ name ∈ first.names, ∀ other ∈ second.names,
      ∀ build ∈ before.newBuilds after name, ∀ next ∈ before.newBuilds after other,
        build.Before after.tick next ∨ next.Before after.tick build

namespace Tree

variable {before runner after : Runner} {tree next : Tree}

theorem apart_blank (node : Tree) : node.blank.Apart before runner ↔ node.Apart before runner := by
  cases node with
  | task leaf => exact Iff.rfl
  | branch group children =>
      have at_blank : ∀ {place : Nat} {child : Tree}, children[place]? = some child →
          (children.map Tree.blank)[place]? = some child.blank := fun at' => by
        rw [List.getElem?_map, at', Option.map_some]
      have of_blank : ∀ {place : Nat} {child : Tree}, (children.map Tree.blank)[place]? = some child →
          ∃ old, children[place]? = some old ∧ child.names = old.names := fun at' => by
        rw [List.getElem?_map] at at'
        obtain ⟨old, held, rfl⟩ := Option.map_eq_some_iff.mp at'
        exact ⟨old, held, names_blank old⟩
      simp only [blank, blanks_eq, Apart, Group.isSerial_blank]
      constructor
      · intro apart serial i j first second order at' later name named other named'
        exact apart serial i j _ _ order (at_blank at') (at_blank later) name
          (names_blank first ▸ named) other (names_blank second ▸ named')
      · intro apart serial i j first second order at' later name named other named'
        obtain ⟨old, held, names⟩ := of_blank at'
        obtain ⟨old', held', names'⟩ := of_blank later
        exact apart serial i j old old' order held held' name (names ▸ named) other (names' ▸ named')

theorem apart_of_layout (layout : next.blank = tree.blank)
    (apart : tree.Every (Apart before runner)) : next.Every (Apart before runner) := by
  have same : ∀ {tree : Tree},
      tree.blank.Every (Apart before runner) ↔ tree.Every (Apart before runner) := fun {tree} =>
    every_blank.trans ⟨fun every => every.mono fun node => (apart_blank node).mp,
      fun every => every.mono fun node => (apart_blank node).mpr⟩
  exact same.mp (layout ▸ same.mpr apart)

/-- Where nothing was built, nothing overlaps. -/
theorem apart_of_unbuilt (unbuilt : ∀ name, runner.buildsOf name = before.buildsOf name) :
    tree.Every (Apart before runner) := by
  intro node _
  cases node with
  | task leaf => trivial
  | branch group children =>
      intro _ _ _ _ _ _ _ _ name _ _ _ build built
      rw [Runner.newBuilds_eq_nil (unbuilt name)] at built
      cases built

/-- Others build, or time passes. -/
theorem Apart.later (apart : tree.Every (Apart before runner))
    (same : ∀ name ∈ tree.names, before.newBuilds after name = before.newBuilds runner name)
    (order : runner.tick ≤ after.tick) : tree.Every (Apart before after) := by
  intro node member
  have apart := apart node member
  have same : ∀ name ∈ node.names, before.newBuilds after name = before.newBuilds runner name :=
    fun name named => same name (names_of_mem_nodes member named)
  cases node with
  | task leaf => trivial
  | branch group children =>
      intro serial i j first second order' at' later name named other named' build old next old'
      have inside : ∀ {place : Nat} {child : Tree}, children[place]? = some child →
          ∀ name ∈ child.names, name ∈ (Tree.branch group children).names := fun at' name named =>
        mem_names_branch.mpr ⟨_, List.mem_of_getElem? at', named⟩
      rw [same name (inside at' name named)] at old
      rw [same other (inside later other named')] at old'
      exact (apart serial i j first second order' at' later name named other named' build old next
        old').imp (fun before => Build.Before.later before order)
          fun before => Build.Before.later before order

/-- Every build that the tree has started so far is of an earlier tick. -/
def Past (before runner : Runner) (tree : Tree) : Prop :=
  ∀ name ∈ tree.names, ∀ build ∈ before.newBuilds runner name, build.Past runner.tick

theorem Past.later (past : tree.Past before runner)
    (same : ∀ name ∈ tree.names, before.newBuilds after name = before.newBuilds runner name)
    (order : runner.tick ≤ after.tick) : tree.Past before after := by
  intro name named build member
  rw [same name named] at member
  obtain ⟨unforced, early⟩ := past name named build member
  exact ⟨unforced, Nat.lt_of_lt_of_le early order⟩

end Tree

namespace Branch

section

variable {before : Runner} {now : Instant} {index : Nat} {rest indices : List Nat}
  {branch last next : Branch} {world there after : World} {status : Checking} {child visited : Tree}
  {failure : JobFailure} {answer : Except Halt Unit} {again : Bool}

theorem apart_of_layout {first second : Branch} {runner : Runner} (layout : second.blank = first.blank)
    (apart : ∀ child ∈ first.2, child.Every (Tree.Apart before runner)) :
    ∀ child ∈ second.2, child.Every (Tree.Apart before runner) := by
  intro child member
  obtain ⟨place, at'⟩ := List.mem_iff_getElem?.mp member
  obtain ⟨old, held, blank⟩ := child_of_layout layout at'
  exact Tree.apart_of_layout blank (apart old (List.mem_of_getElem? held))

/-- The visits that build apart. -/
def apartCourse (before : Runner) : Course Tree := fun child world answer next after =>
  Direct answer → child.standing.isFinished = false → child.Watched before world.runner →
    child.Every (Tree.Apart before world.runner) → child.Past before world.runner →
      next.Every (Tree.Apart before after.runner)

/-- The visits to children, which build apart. -/
abbrev parted (now : Instant) (before : Runner) : Course Tree := fun child world answer next after =>
  Tree.Sweeps now child world answer next after ∧ apartCourse before child world answer next after

theorem put_apart (distinct : (Tree.branch branch.1 branch.2).names.Nodup)
    (below : ∀ child ∈ branch.2, child.Every (Tree.Apart before world.runner))
    (here : branch.2[index]? = some child)
    (gains : before.Gains child.names world.runner there.runner)
    (apart : visited.Every (Tree.Apart before there.runner)) :
    ∀ other ∈ (branch.put index visited).2, other.Every (Tree.Apart before there.runner) :=
  put_all apart fun _ other different at' =>
    Tree.Apart.later (below other (List.mem_of_getElem? at'))
      (beside distinct here gains different at') (Nat.le_of_eq gains.tick.symm)

/-! ### Parallel groups -/

/-- A pass over a parallel group that has come to the children at the rest of the places. -/
structure PassApart (before : Runner) (rest : List Nat) (branch : Branch) (world : World) : Prop where
  below : ∀ child ∈ branch.2, child.Every (Tree.Apart before world.runner)
  past : ∀ place ∈ rest, ∀ child, branch.2[place]? = some child → child.Past before world.runner

theorem PassApart.skips (kept : PassApart before (index :: rest) branch world) :
    PassApart before rest branch world where
  below := kept.below
  past place member := kept.past place (List.mem_cons_of_mem _ member)

theorem PassApart.visits (kept : PassApart before (index :: rest) branch world)
    (fresh : (index :: rest).Nodup) (distinct : (Tree.branch branch.1 branch.2).names.Nodup)
    (here : branch.2[index]? = some child)
    (gains : before.Gains child.names world.runner there.runner)
    (apart : visited.Every (Tree.Apart before there.runner)) :
    PassApart before rest (branch.put index visited) there where
  below := put_apart distinct kept.below here gains apart
  past place member other at' := by
    have different : place ≠ index := fun same =>
      (List.nodup_cons.mp fresh).1 (same ▸ member)
    obtain ⟨-, at'⟩ := (getElem?_put at').resolve_left fun same => different same.1
    exact (kept.past place (List.mem_cons_of_mem _ member) other at').later
      (beside distinct here gains different at') (Nat.le_of_eq gains.tick.symm)

theorem PassApart.layout (kept : PassApart before rest branch world)
    (layout : next.blank = branch.blank) : PassApart before rest next world where
  below := apart_of_layout layout kept.below
  past place member child at' := by
    obtain ⟨old, held, blank⟩ := child_of_layout layout at'
    unfold Tree.Past
    rw [Tree.names_of_layout blank]
    exact kept.past place member old held

/-- What a visit to a child builds, and how it leaves the child. -/
theorem PassApart.parts (set : now.isSet) (kept : PassApart before (index :: rest) branch world)
    (covered : PassCovered before (index :: rest) branch world status)
    (here : branch.2[index]? = some child) (unfinished : child.standing.isFinished = false)
    (visit : parted now before child world answer visited there) (direct : Direct answer) :
    before.Gains child.names world.runner there.runner ∧
      visited.Every (Tree.Apart before there.runner) := by
  have member := List.mem_of_getElem? here
  have watched := covered.watched.child member
  exact ⟨visit.1.gains set direct unfinished watched,
    visit.2 direct unfinished watched (kept.below child member)
      (kept.past index List.mem_cons_self child here)⟩

theorem Pass.apart (set : now.isSet) {ended : Except Halt Checking}
    (pass : Pass (parted now before) indices branch world status ended last after)
    (direct : Direct ended) (fresh : indices.Nodup)
    (covered : PassCovered before indices branch world status)
    (kept : PassApart before indices branch world) :
    ∀ child ∈ last.2, child.Every (Tree.Apart before after.runner) := by
  induction pass with
  | done => exact kept.below
  | skips finished _ ih => exact ih direct fresh.of_cons (covered.skips finished) kept.skips
  | passes here unfinished visit _ ih =>
      obtain ⟨gains, apart⟩ := kept.parts set covered here unfinished visit nofun
      exact ih direct fresh.of_cons (covered.swept set here unfinished visit.1)
        ((kept.visits fresh covered.watched.distinct here gains apart).layout (blank_cleared _ _))
  | @fails _ _ _ _ _ _ _ _ _ _ _ _ failure _ here unfinished visit answers _ ih =>
      obtain ⟨gains, apart⟩ := kept.parts set covered here unfinished visit
        (Answered.failed failure).direct
      exact ih direct fresh.of_cons (covered.answered set here unfinished visit.1 answers)
        ((kept.visits fresh covered.watched.distinct here gains apart).layout
          (answers.blank (getElem?_put_self here _)))
  | @breaks _ _ _ _ _ _ _ _ _ failure _ here unfinished visit answers =>
      obtain ⟨gains, apart⟩ := kept.parts set covered here unfinished visit
        (Answered.failed failure).direct
      exact ((kept.visits fresh covered.watched.distinct here gains apart).layout
        (answers.blank (getElem?_put_self here _))).below
  | halts here unfinished visit =>
      obtain ⟨gains, apart⟩ := kept.parts set covered here unfinished visit direct.halts
      exact (kept.visits fresh covered.watched.distinct here gains apart).below

/-! ### Serial groups -/

/-- Builds below the child at the cursor start when those below the others have ended. -/
theorem Reached.apart (reached : Reached before branch world) (serial : branch.1.isSerial)
    (here : branch.2[branch.1.cursor]? = some child)
    (gains : before.Gains child.names world.runner there.runner)
    (apart : Tree.Apart before world.runner (.branch branch.1 branch.2))
    (past : (Tree.branch branch.1 branch.2).Past before world.runner) :
    Tree.Apart before there.runner (.branch branch.1 branch.2) := by
  have around := reached.around serial
  -- A build that was there, next to one of another child that was added.
  have parts : ∀ {place : Nat} {other : Tree} {name : String} {old new : Build},
      place ≠ branch.1.cursor → branch.2[place]? = some other → name ∈ other.names →
      old ∈ before.newBuilds world.runner name → new.enqueuedAt = world.runner.tick →
      old.Before there.runner.tick new := by
    intro place other name old new different at' named built enqueued
    have idle := (around place other different at').2 name named old built
    exact ((past name (names_of_child at' name named) old built).before idle enqueued).later
      (Nat.le_of_eq gains.tick.symm)
  have added : ∀ {place : Nat} {other : Tree} {name : String}, branch.2[place]? = some other →
      name ∈ other.names → name ∈ child.names → place = branch.1.cursor := fun at' named gained =>
    Decidable.byContradiction fun different =>
      Tree.apart_of_nodup reached.watched.distinct different at' here _ named gained
  intro _ i j first second order at' later name named other named' build built next built'
  rcases gains.mem built with old | ⟨inside, -, enqueued⟩ <;>
    rcases gains.mem built' with old' | ⟨inside', -, enqueued'⟩
  · exact (apart serial i j first second order at' later name named other named' build old next
      old').imp (fun before => Build.Before.later before (Nat.le_of_eq gains.tick.symm))
        fun before => Build.Before.later before (Nat.le_of_eq gains.tick.symm)
  · have second' := added later named' inside'
    exact .inl (parts (by omega) at' named old enqueued')
  · have first' := added at' named inside
    exact .inr (parts (by omega) later named' old' enqueued)
  · have first' := added at' named inside
    have second' := added later named' inside'
    omega

/-- The builds that a pass over a group adds lie apart from the others. -/
theorem Reached.passed (set : now.isSet) {ended : Except Halt Checking}
    (reached : Reached before branch world)
    (pass : Pass (parted now before) (List.range branch.span) branch world .finished ended last after)
    (direct : Direct ended) (apart : (Tree.branch branch.1 branch.2).Every (Tree.Apart before world.runner))
    (past : (Tree.branch branch.1 branch.2).Past before world.runner) :
    (Tree.branch last.1 last.2).Every (Tree.Apart before after.runner) := by
  obtain ⟨here, below⟩ := Tree.every_branch.mp apart
  have past' : ∀ {place : Nat} {child : Tree}, branch.2[place]? = some child →
      child.Past before world.runner := fun at' name named => past name (names_of_child at' name named)
  have layout : last.blank = branch.blank := pass.blank fun visit => visit.1.blank
  have finish : ∀ {middle : Branch}, middle.blank = branch.blank →
      Tree.Apart before after.runner (.branch branch.1 branch.2) →
      (∀ child ∈ middle.2, child.Every (Tree.Apart before after.runner)) →
      (Tree.branch last.1 last.2).Every (Tree.Apart before after.runner) := fun same here below =>
    Tree.apart_of_layout (blank_tree layout)
      (Tree.every_branch.mpr ⟨here, apart_of_layout same.symm below⟩)
  -- A serial group visits one child at most, a parallel one visits each of its children once.
  cases kind : branch.1.isSerial with
  | true =>
      have single := pass.single kind (reached.around kind).waits.1
      rcases single.visits direct with rfl | ⟨child, next, answer, at', unfinished, visit, direct'⟩
      · exact finish rfl here below
      · have member := List.mem_of_getElem? at'
        have watched := reached.watched.child member
        have gains := visit.1.gains set direct' unfinished watched
        have apart' := visit.2 direct' unfinished watched (below child member) (past' at')
        exact finish (blank_put at' visit.1.blank) (reached.apart kind at' gains here past)
          (put_apart reached.watched.distinct below at' gains apart')
  | false =>
      have below' := pass.apart set direct List.nodup_range (reached.start kind)
        ⟨below, fun _ _ _ => past'⟩
      exact finish layout (fun serial => by cases kind.symm.trans serial) below'

theorem Sweeps.apart (set : now.isSet) {group group' : Group} {children children' : List Tree}
    (sweeps : Sweeps now (parted now before) (group, children) world answer (group', children') after)
    (direct : Direct answer) (unfinished : group.standing.isFinished = false)
    (watched : (Tree.branch group children).Watched before world.runner)
    (apart : (Tree.branch group children).Every (Tree.Apart before world.runner))
    (past : (Tree.branch group children).Past before world.runner) :
    (Tree.branch group' children').Every (Tree.Apart before after.runner) := by
  have reached := reached_begun now unfinished watched
  have layout := blank_tree (blank_begun (group, children) now)
  have apart := Tree.apart_of_layout layout apart
  have past : (Tree.branch (begun (group, children) now).1
      (begun (group, children) now).2).Past before world.runner := by
    unfold Tree.Past
    rw [Tree.names_of_layout layout]
    exact past
  cases sweeps with
  | halts pass =>
      exact reached.passed set pass direct.halts
        apart past
  | @closes passed _ _ status _ pass closes =>
      exact Tree.apart_of_layout (blank_tree (closes.blank.trans (blank_closed passed status)))
        (reached.passed set pass nofun apart past)

end

end Branch

/-- Sweeps start builds below different children of a serial group apart in time. -/
theorem Tree.Sweeps.apart {before : Runner} {now : Instant} (set : now.isSet) {tree next : Tree}
    {world after : World} {answer : Except Halt Unit}
    (sweeps : Tree.Sweeps now tree world answer next after) (direct : Direct answer)
    (unfinished : tree.standing.isFinished = false) (watched : tree.Watched before world.runner)
    (apart : tree.Every (Apart before world.runner)) (past : tree.Past before world.runner) :
    next.Every (Apart before after.runner) := by
  refine Sweeps.rule (p := Branch.apartCourse before) ?_ ?_ sweeps direct unfinished watched apart past
  · intro leaf world answer leaf' after _ _ _ _ _ _
    exact every_task.mpr trivial
  · intro group children world answer group' children' after sweeps direct unfinished watched apart past
    exact sweeps.apart set direct unfinished watched apart past

end BuildFlow
