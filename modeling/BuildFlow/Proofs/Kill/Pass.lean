import BuildFlow.Proofs.Kill.Step
import BuildFlow.Proofs.Lists
/-!
One pass over a tree that stops builds. It always comes to its end. Nothing that was
declared or counted changes, and of the job table only builds that were active.
-/
namespace BuildFlow

/-! ## Passes -/

/-- Visits to children in turn, some of which are left out. -/
inductive Chain (spared : Tree → Prop) (course : Tree → Scene → Tree → Scene → Prop) :
    List Tree → Scene → List Tree → Scene → Prop
  | done {scene : Scene} : Chain spared course [] scene [] scene
  | skips {child : Tree} {rest rest' : List Tree} {before after : Scene} (skipped : spared child)
      (onward : Chain spared course rest before rest' after) :
      Chain spared course (child :: rest) before (child :: rest') after
  | visits {child child' : Tree} {rest rest' : List Tree} {before there after : Scene}
      (visit : course child before child' there)
      (onward : Chain spared course rest there rest' after) :
      Chain spared course (child :: rest) before (child' :: rest') after

theorem Chain.mono {spared : Tree → Prop} {course wider : Tree → Scene → Tree → Scene → Prop}
    {children children' : List Tree} {before after : Scene}
    (widens : ∀ child ∈ children, ∀ {before child' after},
      course child before child' after → wider child before child' after)
    (chain : Chain spared course children before children' after) :
    Chain spared wider children before children' after := by
  induction chain with
  | done => exact .done
  | skips skipped _ ih =>
      exact .skips skipped (ih fun child member => widens child (List.mem_cons_of_mem _ member))
  | visits visit _ ih =>
      exact .visits (widens _ List.mem_cons_self visit)
        (ih fun child member => widens child (List.mem_cons_of_mem _ member))

/-- What every visit keeps of the scene is kept by all in turn. -/
theorem Chain.keeps {spared : Tree → Prop} {course : Tree → Scene → Tree → Scene → Prop}
    {p : Scene → Prop} {children children' : List Tree} {before after : Scene}
    (chain : Chain spared course children before children' after)
    (visits : ∀ child ∈ children, ∀ {before child' there}, course child before child' there →
      p before → p there) (start : p before) : p after := by
  induction chain with
  | done => exact start
  | skips _ _ ih => exact ih (fun child member => visits child (List.mem_cons_of_mem _ member)) start
  | visits visit _ ih =>
      exact ih (fun child member => visits child (List.mem_cons_of_mem _ member))
        (visits _ List.mem_cons_self visit start)

theorem Chain.onward {spared : Tree → Prop} {course : Tree → Scene → Tree → Scene → Prop}
    (onward : ∀ {child before child' after}, course child before child' after →
      before.Onward after)
    {children children' : List Tree} {before after : Scene}
    (chain : Chain spared course children before children' after) : before.Onward after :=
  chain.keeps (p := before.Onward) (fun _ _ _ _ _ visit reached => reached.trans (onward visit))
    (.refl before)

/-- Between two scenes a child is left out, or a visit makes another one of it. -/
def Chain.Makes (spared : Tree → Prop) (course : Tree → Scene → Tree → Scene → Prop)
    (before after : Scene) (child child' : Tree) : Prop :=
  child' = child ∧ spared child ∨
    ∃ here there, course child here child' there ∧ before.Onward here ∧ there.Onward after

theorem Chain.each {spared : Tree → Prop} {course : Tree → Scene → Tree → Scene → Prop}
    (onward : ∀ {child before child' after}, course child before child' after →
      before.Onward after)
    {children children' : List Tree} {before after : Scene}
    (chain : Chain spared course children before children' after) :
    List.Forall₂ (Chain.Makes spared course before after) children children' := by
  induction chain with
  | done => exact .nil
  | skips skipped _ ih => exact .cons (.inl ⟨rfl, skipped⟩) ih
  | visits visit rest ih =>
      refine .cons (.inr ⟨_, _, visit, .refl _, rest.onward onward⟩) (ih.imp fun child child' made => ?_)
      exact made.imp_right fun ⟨here, there, visited, first, last⟩ =>
        ⟨here, there, visited, (onward visit).trans first, last⟩

/-- Each child after the visits was left out, or is what a visit made of one. -/
theorem Chain.mem {spared : Tree → Prop} {course : Tree → Scene → Tree → Scene → Prop}
    (onward : ∀ {child before child' after}, course child before child' after →
      before.Onward after)
    {children children' : List Tree} {before after : Scene}
    (chain : Chain spared course children before children' after) {child' : Tree}
    (member : child' ∈ children') :
    ∃ child ∈ children, child' = child ∧ spared child ∨
      ∃ here there, course child here child' there ∧ before.Onward here ∧ there.Onward after :=
  exists_of_mem_right (chain.each onward) member

/-- Each child was left out, or was made one of the children after the visits. -/
theorem Chain.reached {spared : Tree → Prop} {course : Tree → Scene → Tree → Scene → Prop}
    (onward : ∀ {child before child' after}, course child before child' after →
      before.Onward after)
    {children children' : List Tree} {before after : Scene}
    (chain : Chain spared course children before children' after) {child : Tree}
    (member : child ∈ children) :
    ∃ child' ∈ children', child' = child ∧ spared child ∨
      ∃ here there, course child here child' there ∧ before.Onward here ∧ there.Onward after :=
  exists_of_mem_right (chain.each onward).flip member

/-- The group after a pass over its children. -/
def Group.quit (group : Group) (children : List Tree) : Group :=
  if group.standing.isFinished then group else group.settle children

namespace Tree

/-- Nodes that have nothing left to wait for are left out, unless all builds are stopped. -/
def Spared (all : Bool) (tree : Tree) : Prop := all = false ∧ tree.standing.isFinished

/-- Where a pass that stops builds leads. -/
inductive Quits (all : Bool) : Tree → Scene → Tree → Scene → Prop
  | task {leaf leaf' : Task} {before after : Scene} (quits : leaf.Quits all before leaf' after) :
      Quits all (.task leaf) before (.task leaf') after
  | spares {group : Group} {children : List Tree} {scene : Scene} (own : all = false)
      (finished : group.standing.isFinished) :
      Quits all (.branch group children) scene (.branch group children) scene
  | branch {group : Group} {children children' : List Tree} {before after : Scene}
      (reached : group.standing.isFinished → all)
      (chain : Chain (Spared all) (Quits all) children before children' after) :
      Quits all (.branch group children) before (.branch (group.quit children') children') after

variable {all : Bool} {tree next : Tree} {before after : Scene}

/-- What holds of the steps of invocations, and of a group if it holds of the visits
to its children, holds of every pass. -/
theorem Quits.rule {p : Tree → Scene → Tree → Scene → Prop}
    (task : ∀ {leaf before leaf' after}, Task.Quits all leaf before leaf' after →
      p (.task leaf) before (.task leaf') after)
    (spares : ∀ {group children scene}, all = false → group.standing.isFinished →
      p (.branch group children) scene (.branch group children) scene)
    (branch : ∀ {group children before children' after}, (group.standing.isFinished → all) →
      Chain (Spared all) (fun child before child' after =>
          Quits all child before child' after ∧ p child before child' after)
        children before children' after →
      p (.branch group children) before (.branch (group.quit children') children') after)
    (quits : Quits all tree before next after) : p tree before next after := by
  induction tree using childrenInduction generalizing before next after with
  | leaf leaf => cases quits with | task quits => exact task quits
  | branch group children ih =>
      cases quits with
      | spares own finished => exact spares own finished
      | branch reached chain =>
          exact branch reached (chain.mono fun child member _ _ _ visit =>
            ⟨visit, ih child member visit⟩)

theorem Quits.onward (quits : Quits all tree before next after) : before.Onward after := by
  refine quits.rule (p := fun _ before _ after => before.Onward after) Task.Quits.onward
    (fun _ _ => .refl _) ?_
  intro group children before children' after _ chain
  exact chain.onward fun visit => visit.2

theorem Quits.halts (quits : Quits all tree before next after) :
    before.runner.Halts after.runner :=
  quits.onward.halts

end Tree

namespace Group

/-- What a pass may change of a group. -/
theorem quit_shape (group : Group) (children : List Tree) :
    ∃ checking result, group.quit children =
      { group with standing := { group.standing with checking, result } } := by
  unfold quit settle
  split
  · exact ⟨_, _, rfl⟩
  · dsimp only
    split <;> exact ⟨_, _, rfl⟩

end Group

namespace Tree

variable {all : Bool} {tree next : Tree} {before after : Scene}

/-- Each invocation after a pass is one from before, at most with another result. -/
theorem Quits.tasks (quits : Quits all tree before next after) :
    ∀ leaf' ∈ next.tasks, ∃ leaf ∈ tree.tasks, leaf.Stilled leaf' := by
  refine quits.rule
    (p := fun tree _ next _ => ∀ leaf' ∈ next.tasks, ∃ leaf ∈ tree.tasks, leaf.Stilled leaf')
    ?_ (fun _ _ leaf member => ⟨leaf, member, .refl leaf⟩) ?_
  · intro leaf before leaf' after quits other member
    rw [List.mem_singleton.mp member]
    exact ⟨leaf, List.mem_singleton_self leaf, quits.stilled⟩
  · intro group children before children' after _ chain leaf' member
    obtain ⟨child', member, inside⟩ := mem_tasksOf.mp member
    obtain ⟨child, member, ⟨rfl, -⟩ | ⟨_, _, ⟨-, visited⟩, -, -⟩⟩ :=
      chain.mem (fun visit => visit.1.onward) member
    · exact ⟨leaf', mem_tasksOf.mpr ⟨child', member, inside⟩, .refl leaf'⟩
    · obtain ⟨leaf, inside, stilled⟩ := visited leaf' inside
      exact ⟨leaf, mem_tasksOf.mpr ⟨child, member, inside⟩, stilled⟩

theorem Quits.tied {base : Runner} (quits : Quits all tree before next after)
    (tied : ∀ leaf ∈ tree.tasks, leaf.Tied base before.runner) :
    ∀ leaf ∈ next.tasks, leaf.Tied base after.runner := by
  intro leaf' member
  obtain ⟨leaf, member, stilled⟩ := quits.tasks leaf' member
  exact stilled.tied ((tied leaf member).grows quits.halts.grows)

/-- What every step keeps of the scene, given something that holds of all invocations
as builds go on, a pass keeps. -/
theorem Quits.keeps {q : Runner → Task → Prop} {p : Scene → Prop}
    (grows : ∀ {runner later leaf}, q runner leaf → runner.Grows later → q later leaf)
    (step : ∀ {leaf before leaf' after}, Task.Quits all leaf before leaf' after →
      q before.runner leaf → p before → p after)
    (quits : Quits all tree before next after)
    (holds : ∀ leaf ∈ tree.tasks, q before.runner leaf) (start : p before) : p after := by
  refine quits.rule (p := fun tree before _ after =>
    (∀ leaf ∈ tree.tasks, q before.runner leaf) → p before → p after) ?_
    (fun _ _ _ start => start) ?_ holds start
  · intro leaf before leaf' after quits holds
    exact step quits (holds leaf (List.mem_singleton_self leaf))
  · intro group children before children' after _ chain holds start
    refine (chain.keeps (p := fun scene =>
      (∀ child ∈ children, ∀ leaf ∈ child.tasks, q scene.runner leaf) ∧ p scene)
      ?_ ⟨fun child member leaf inside => ?_, start⟩).2
    · rintro child member before child' there visit ⟨holds, start⟩
      refine ⟨fun other member leaf inside => ?_, visit.2 (holds child member) start⟩
      exact grows (holds other member leaf inside) visit.1.halts.grows
    · exact holds leaf (mem_tasksOf.mpr ⟨child, member, inside⟩)

/-! ## What a pass leaves as it is -/

/-- How often every node was tried. -/
def counts (tree : Tree) : List (Nat × Nat × Nat) :=
  tree.nodes.map fun node => (node.standing.id, node.standing.tried, node.standing.totalTried)

theorem counts_branch (group : Group) (children : List Tree) :
    (Tree.branch group children).counts =
      (group.standing.id, group.standing.tried, group.standing.totalTried) ::
        children.flatMap counts := by
  have below : (nodesOf children).map
      (fun node => (node.standing.id, node.standing.tried, node.standing.totalTried)) =
        children.flatMap counts := by
    induction children with
    | nil => rfl
    | cons child rest ih => rw [nodesOf, List.map_append, ih]; rfl
  exact congrArg (List.cons _) below

/-- A pass tries nothing again. -/
theorem Quits.counts (quits : Quits all tree before next after) : next.counts = tree.counts := by
  refine quits.rule (p := fun tree _ next _ => next.counts = tree.counts) ?_ (fun _ _ => rfl) ?_
  · intro leaf before leaf' after quits
    obtain ⟨_, _, _, rfl⟩ := quits.stilled
    rfl
  · intro group children before children' after _ chain
    have below : children'.flatMap Tree.counts = children.flatMap Tree.counts := by
      induction chain with
      | done => rfl
      | skips _ _ ih => rw [List.flatMap_cons, List.flatMap_cons, ih]
      | visits visit _ ih => rw [List.flatMap_cons, List.flatMap_cons, visit.2, ih]
    obtain ⟨_, _, shape⟩ := group.quit_shape children'
    rw [counts_branch, counts_branch, below, shape]

/-- A pass changes nothing that was declared. -/
theorem Quits.blank (quits : Quits all tree before next after) : next.blank = tree.blank := by
  refine quits.rule (p := fun tree _ next _ => next.blank = tree.blank) ?_ (fun _ _ => rfl) ?_
  · intro leaf before leaf' after quits
    obtain ⟨_, _, _, rfl⟩ := quits.stilled
    rfl
  · intro group children before children' after _ chain
    have below : children'.map Tree.blank = children.map Tree.blank := by
      induction chain with
      | done => rfl
      | skips _ _ ih => rw [List.map_cons, List.map_cons, ih]
      | visits visit _ ih => rw [List.map_cons, List.map_cons, visit.2, ih]
    obtain ⟨_, _, shape⟩ := group.quit_shape children'
    rw [Tree.blank, Tree.blank, blanks_eq, blanks_eq, below, shape]
    rfl

/-! ## The pass comes to its end -/

variable {host : Host}

theorem kill_leaf_quits {base : Runner} {leaf : Task} (faultless : host.script.faults = [])
    (fits : host.runner.Fits) (tied : leaf.Tied base host.runner) :
    (kill true (.task leaf) host).1 = .ok () ∧
      Host.Spares host (kill true (.task leaf) host).2.2 ∧
      Quits (host.kill.kind = .all) (.task leaf) host.scene (kill true (.task leaf) host).2.1
        (kill true (.task leaf) host).2.2.scene := by
  obtain ⟨ended, spares, quits⟩ := Task.leads_kill faultless fits tied
  unfold kill
  rw [NodeAct.visit_eq]
  exact ⟨ended, spares, .task quits⟩

theorem killChildren_chain {base : Runner} {children : List Tree}
    (each : ∀ child ∈ children, ∀ host : Host, host.script.faults = [] → host.runner.Fits →
      (∀ leaf ∈ child.tasks, leaf.Tied base host.runner) →
      (kill true child host).1 = .ok () ∧ Host.Spares host (kill true child host).2.2 ∧
        Quits (host.kill.kind = .all) child host.scene (kill true child host).2.1
          (kill true child host).2.2.scene)
    {host : Host} (faultless : host.script.faults = []) (fits : host.runner.Fits)
    (tied : ∀ child ∈ children, ∀ leaf ∈ child.tasks, leaf.Tied base host.runner) {all : Bool}
    (kind : all = decide (host.kill.kind = .all)) :
    (killChildren true all children host).1 = .ok () ∧
      Host.Spares host (killChildren true all children host).2.2 ∧
      Chain (Spared all) (Quits all) children host.scene (killChildren true all children host).2.1
        (killChildren true all children host).2.2.scene := by
  induction children generalizing host with
  | nil => exact ⟨rfl, .refl host, .done⟩
  | cons child rest ih =>
      have each' := fun other member => each other (List.mem_cons_of_mem _ member)
      have tied' := fun other member => tied other (List.mem_cons_of_mem _ member)
      unfold killChildren
      split
      · obtain ⟨ended, spares, quits⟩ :=
          each child List.mem_cons_self host faultless fits (tied child List.mem_cons_self)
        rw [← kind] at quits
        generalize kill true child host = out at ended spares quits ⊢
        obtain ⟨answer, child', there⟩ := out
        dsimp only at ended spares quits ⊢
        cases ended
        obtain ⟨ended, spares', chain⟩ := ih each' (spares.script ▸ faultless)
          (quits.halts.fits fits)
          (fun other member leaf inside => (tied' other member leaf inside).grows quits.halts.grows)
          (spares.kill ▸ kind)
        exact ⟨ended, spares.trans spares', .visits quits chain⟩
      · next skipped =>
          have spared : child.Spared all := by simpa [Spared] using skipped
          obtain ⟨ended, spares, chain⟩ := ih each' faultless fits tied' kind
          exact ⟨ended, spares, .skips spared chain⟩

/-- A pass never ends early, and leads where the relation says. -/
theorem kill_quits {base : Runner} (tree : Tree) {host : Host}
    (faultless : host.script.faults = []) (fits : host.runner.Fits)
    (tied : ∀ leaf ∈ tree.tasks, leaf.Tied base host.runner) :
    (kill true tree host).1 = .ok () ∧ Host.Spares host (kill true tree host).2.2 ∧
      Quits (host.kill.kind = .all) tree host.scene (kill true tree host).2.1
        (kill true tree host).2.2.scene := by
  induction tree using childrenInduction generalizing host with
  | leaf leaf => exact kill_leaf_quits faultless fits (tied leaf (List.mem_singleton_self leaf))
  | branch group children ih =>
      unfold kill
      dsimp only
      split
      · next spared =>
          have spared : group.standing.isFinished ∧ ¬ host.kill.kind = .all := by
            simpa using spared
          exact ⟨rfl, .refl host, .spares (decide_eq_false spared.2) spared.1⟩
      · next reached =>
          have reached : group.standing.isFinished → host.kill.kind = .all := by
            simpa using reached
          obtain ⟨ended, spares, chain⟩ := killChildren_chain
            (fun child member host faultless fits tied => ih child member faultless fits tied)
            faultless fits
            (fun child member leaf inside => tied leaf (mem_tasksOf.mpr ⟨child, member, inside⟩))
            rfl
          generalize killChildren true _ children host = out at ended spares chain ⊢
          obtain ⟨answer, children', after⟩ := out
          dsimp only at ended spares chain ⊢
          cases ended
          exact ⟨rfl, spares, .branch (fun finished => decide_eq_true (reached finished)) chain⟩

end Tree

end BuildFlow
