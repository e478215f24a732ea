import Mathlib.Algebra.Order.BigOperators.Group.List
import Mathlib.Algebra.Order.Group.Nat
import BuildFlow.Proofs.Tree.Budget
/-!
How often the children of a group are tried. A parallel group tries only the child
that failed, and never more often than all scopes together allow. A serial group
tries every child in reach as soon as one of them may be tried again, so what bounds
the attempts of a child are the failures that all children may have.
-/
namespace BuildFlow

namespace Standing

/-- The failures to come that only outer scopes allow. -/
def outerLeft (standing : Standing) : Nat := standing.totalLeft - standing.scopeLeft

theorem outerLeft_prepare {standing : Standing} (scope : Bool) :
    (standing.prepare scope).outerLeft ≤ standing.outerLeft := by
  by_cases unknown : standing.result = .unknown <;> cases scope <;>
    simp [outerLeft, totalLeft, scopeLeft, awaited, prepare, remainingTries, remainingTotalTries,
      unknown] <;> omega

theorem scopeLeft_new (standing : Standing) :
    (standing.prepare true).scopeLeft = standing.maxTries - 1 := by
  simp [scopeLeft, awaited, prepare, remainingTries]

/-- What a visit can do to the counts of a node: nothing, or use up all tries. -/
structure Counted (before after : Standing) : Prop where
  bounds : after.blank = before.blank
  tries : after.tried = before.tried ∧ after.totalTried = before.totalTried ∨
    after.tried = before.maxTries ∧ after.totalTried = before.totalMaxTries
  known : before.result ≠ .unknown → after.result ≠ .unknown

variable {before after : Standing}

/-- Nothing is counted as long as a result that is there is kept. -/
theorem Counted.of_same (bounds : after.blank = before.blank) (tried : after.tried = before.tried)
    (total : after.totalTried = before.totalTried)
    (known : before.result ≠ .unknown → after.result ≠ .unknown) : Counted before after :=
  ⟨bounds, .inl ⟨tried, total⟩, known⟩

theorem Counted.refl (standing : Standing) : Counted standing standing :=
  .of_same rfl rfl rfl fun known => known

theorem counted_exhaust (standing : Standing) : Counted standing standing.exhaust :=
  ⟨rfl, .inr ⟨rfl, rfl⟩, fun known => known⟩

theorem Counted.maxTries (counted : Counted before after) : after.maxTries = before.maxTries :=
  show after.blank.maxTries = before.blank.maxTries from congrArg _ counted.bounds

theorem Counted.totalMaxTries (counted : Counted before after) :
    after.totalMaxTries = before.totalMaxTries :=
  show after.blank.totalMaxTries = before.blank.totalMaxTries from congrArg _ counted.bounds

theorem Counted.trans {middle : Standing} (first : Counted before middle)
    (second : Counted middle after) : Counted before after := by
  have bounds := first.maxTries
  have bounds' := first.totalMaxTries
  refine ⟨second.bounds.trans first.bounds, ?_, fun known => second.known (first.known known)⟩
  rcases second.tries with ⟨tried, total⟩ | ⟨tried, total⟩
  · rw [tried, total]
    exact first.tries
  · exact .inr ⟨tried.trans bounds, total.trans bounds'⟩

theorem Counted.awaited (counted : Counted before after) : after.awaited ≤ before.awaited := by
  have known := counted.known
  unfold Standing.awaited
  split
  · next unknown =>
      split
      · exact Nat.le_refl 1
      · next known' => exact absurd unknown (known known')
  · exact Nat.zero_le _

theorem Counted.left (counted : Counted before after) :
    after.scopeLeft ≤ before.scopeLeft ∧ after.outerLeft ≤ before.outerLeft := by
  have awaited := counted.awaited
  have bounds := counted.maxTries
  have bounds' := counted.totalMaxTries
  have one : before.awaited ≤ 1 := by
    unfold Standing.awaited
    split <;> decide
  unfold outerLeft totalLeft scopeLeft remainingTries remainingTotalTries
  rcases counted.tries with ⟨tried, total⟩ | ⟨tried, total⟩ <;> omega

/-- A failure uses up a try of the scope, or of the outer ones if the scope has
none left. -/
theorem Counted.failed (counted : Counted before after) (unknown : before.result = .unknown)
    (known : after.result ≠ .unknown) :
    (0 < after.remainingTries → after.scopeLeft < before.scopeLeft) ∧
      (after.remainingTries = 0 → 0 < after.remainingTotalTries →
        after.outerLeft < before.outerLeft) := by
  have bounds := counted.maxTries
  have bounds' := counted.totalMaxTries
  have before' : before.awaited = 1 := if_pos unknown
  have after' : after.awaited = 0 := if_neg known
  unfold outerLeft totalLeft scopeLeft remainingTries remainingTotalTries
  rcases counted.tries with ⟨tried, total⟩ | ⟨tried, total⟩ <;> constructor <;> intros <;> omega

/-- The counts stay within what the scopes allow: each scope before the current one
was used up. -/
def Within (standing : Standing) : Prop :=
  0 < standing.totalMaxTries → standing.maxTries ∣ standing.totalMaxTries →
    0 < standing.tried ∧ standing.tried ≤ standing.maxTries ∧
      standing.totalTried ≤ standing.totalMaxTries ∧
        ∃ scopes, standing.totalTried = standing.maxTries * scopes + standing.tried

theorem Within.counted (within : before.Within) (counted : Counted before after) :
    after.Within := by
  intro some' divides
  rw [counted.totalMaxTries] at some'
  rw [counted.totalMaxTries, counted.maxTries] at divides
  obtain ⟨positive, inScope, inAll, scopes, same⟩ := within some' divides
  rw [counted.totalMaxTries, counted.maxTries]
  rcases counted.tries with ⟨tried, total⟩ | ⟨tried, total⟩ <;> rw [tried, total]
  · exact ⟨positive, inScope, inAll, scopes, same⟩
  · obtain ⟨all, same⟩ := divides
    refine ⟨Nat.lt_of_lt_of_le positive inScope, Nat.le_refl _, Nat.le_refl _, all - 1, ?_⟩
    cases all with
    | zero => omega
    | succ all => rw [same, Nat.succ_sub_one, Nat.mul_succ]

theorem Within.prepare {standing : Standing} (within : standing.Within) (may : standing.mayTry) :
    (standing.prepare standing.newScope).Within := by
  intro some' divides
  obtain ⟨positive, inScope, inAll, scopes, same⟩ := within some' divides
  have some' : 0 < standing.totalMaxTries := some'
  rw [mayTry_eq_true, remainingTries, remainingTotalTries] at may
  obtain ⟨all, divides⟩ : ∃ all, standing.totalMaxTries = standing.maxTries * all := divides
  by_cases spent : standing.maxTries - standing.tried = 0
  · have scope : standing.newScope = true := newScope_eq_true.mpr spent
    rw [scope]
    refine ⟨Nat.one_pos, ?_, ?_, scopes + 1, ?_⟩ <;>
      simp only [Standing.prepare, ↓reduceIte, Nat.mul_succ] <;> omega
  · have scope : standing.newScope = false := newScope_eq_false.mpr (Nat.pos_of_ne_zero spent)
    -- The current scope is one of those that are allowed, and it has a try left.
    have below : scopes < all := by
      apply Nat.lt_of_mul_lt_mul_left (a := standing.maxTries)
      omega
    have whole := Nat.mul_le_mul_left standing.maxTries (Nat.succ_le_of_lt below)
    rw [Nat.mul_succ] at whole
    rw [scope]
    refine ⟨Nat.succ_pos _, ?_, ?_, scopes, ?_⟩ <;>
      simp only [Standing.prepare, Bool.false_eq_true, ↓reduceIte] <;> omega

end Standing

namespace Branch

/-! ## Restarts of a serial group -/

/-- The failures that outer scopes allow the children. -/
def outerTries (children : List Tree) : Nat :=
  (children.map fun child => child.standing.totalMaxTries - child.standing.maxTries).sum

/-- The failures that one scope allows the children. -/
def scopeTries (children : List Tree) : Nat :=
  (children.map fun child => child.standing.maxTries - 1).sum

/-- No child of a serial group is tried more often. Every failure that opens a new
scope sets back the tries of all children. -/
def ceiling (children : List Tree) : Nat := (outerTries children + 1) * (scopeTries children + 1)

def outerSum (children : List Tree) : Nat :=
  (children.map fun child => child.standing.outerLeft).sum

def scopeSum (children : List Tree) : Nat :=
  (children.map fun child => child.standing.scopeLeft).sum

/-- The restarts to come. -/
def restarts (children : List Tree) : Nat :=
  outerSum children * (scopeTries children + 1) + scopeSum children

section

variable {children next : List Tree}

/-- The children may be tried as often. -/
def SameBounds (next children : List Tree) : Prop :=
  (next.map fun child => child.standing.blank) = children.map fun child => child.standing.blank

theorem SameBounds.sum (same : SameBounds next children) {measure : Standing → Nat}
    (blind : ∀ standing : Standing, measure standing.blank = measure standing) :
    (next.map fun child => measure child.standing).sum =
      (children.map fun child => measure child.standing).sum := by
  have through : (fun child : Tree => measure child.standing) =
      measure ∘ fun child : Tree => child.standing.blank :=
    funext fun child => (blind child.standing).symm
  rw [through, ← List.map_map, same, List.map_map]

theorem SameBounds.outerTries (same : SameBounds next children) :
    outerTries next = outerTries children :=
  @SameBounds.sum _ _ same (fun standing => standing.totalMaxTries - standing.maxTries) fun _ => rfl

theorem SameBounds.scopeTries (same : SameBounds next children) :
    scopeTries next = scopeTries children :=
  @SameBounds.sum _ _ same (fun standing => standing.maxTries - 1) fun _ => rfl

theorem SameBounds.ceiling (same : SameBounds next children) : ceiling next = ceiling children := by
  unfold Branch.ceiling
  rw [same.outerTries, same.scopeTries]

theorem restarts_le (same : scopeTries next = scopeTries children)
    (outer : outerSum next ≤ outerSum children) (scope : scopeSum next ≤ scopeSum children) :
    restarts next ≤ restarts children := by
  unfold restarts
  rw [same]
  exact Nat.add_le_add (Nat.mul_le_mul_right _ outer) scope

theorem restarts_lt (same : scopeTries next = scopeTries children)
    (less : outerSum next ≤ outerSum children ∧ scopeSum next < scopeSum children ∨
      outerSum next < outerSum children ∧ scopeSum next ≤ scopeTries children) :
    restarts next < restarts children := by
  unfold restarts
  rw [same]
  rcases less with ⟨outer, scope⟩ | ⟨outer, scope⟩
  · exact Nat.add_lt_add_of_le_of_lt (Nat.mul_le_mul_right _ outer) scope
  · have fewer := Nat.mul_le_mul_right (scopeTries children + 1) (Nat.succ_le_of_lt outer)
    rw [Nat.succ_mul] at fewer
    omega

end

/-- How often the children of a serial group were tried leaves room for the
restarts to come. -/
structure Rationed (children : List Tree) : Prop where
  scope : ∀ child ∈ children, child.standing.scopeLeft ≤ child.standing.maxTries - 1
  tried : ∀ leaf, .task leaf ∈ children →
    leaf.standing.totalTried + restarts children ≤ ceiling children

end Branch

namespace Tree

/-- What a visit can do to the counts of a tree. -/
structure Counts (tree : Tree) (answer : Except Halt Unit) (next : Tree) : Prop where
  counted : tree.standing.Counted next.standing
  task : ∀ leaf, next = .task leaf →
    ∃ old, tree = .task old ∧ leaf.standing.totalTried = old.standing.totalTried
  failed : ∀ failure, answer = failedBy failure →
    tree.standing.result = .unknown ∧ next.standing.result ≠ .unknown

/-- No child has been tried more often than its group allows. -/
def Capped : Tree → Prop
  | .task leaf => leaf.standing.isFinished = false → leaf.standing.result = .unknown
  | .branch group children =>
      if group.isSerial then Branch.Rationed children
      else ∀ child ∈ children, child.standing.Within

theorem Counts.scope {tree next : Tree} {answer : Except Halt Unit}
    (counts : tree.Counts answer next)
    (scope : tree.standing.scopeLeft ≤ tree.standing.maxTries - 1) :
    next.standing.scopeLeft ≤ next.standing.maxTries - 1 := by
  rw [counts.counted.maxTries]
  exact Nat.le_trans counts.counted.left.1 scope

end Tree

namespace Branch

variable {children : List Tree} {branch last : Branch} {index : Nat} {child failed next : Tree}
  {answer : Except Halt Unit}

theorem outerSum_set (here : children[index]? = some child) (next : Tree) :
    outerSum (children.set index next) + child.standing.outerLeft =
      outerSum children + next.standing.outerLeft :=
  Tree.sum_map_set (fun child : Tree => child.standing.outerLeft) here next

theorem scopeSum_set (here : children[index]? = some child) (next : Tree) :
    scopeSum (children.set index next) + child.standing.scopeLeft =
      scopeSum children + next.standing.scopeLeft :=
  Tree.sum_map_set (fun child : Tree => child.standing.scopeLeft) here next

theorem Rationed.visited (rationed : Rationed children) (here : children[index]? = some child)
    (counts : child.Counts answer next) {leaf : Task} (member : .task leaf ∈ children.set index next) :
    leaf.standing.totalTried + restarts children ≤ ceiling children := by
  rcases List.mem_or_eq_of_mem_set member with old | same
  · exact rationed.tried leaf old
  · subst same
    obtain ⟨old, rfl, tried⟩ := counts.task leaf rfl
    rw [tried]
    exact rationed.tried old (List.mem_of_getElem? here)

theorem bounds_set (here : children[index]? = some child) (counts : child.Counts answer next) :
    SameBounds (children.set index next) children :=
  map_set_same here counts.counted.bounds

/-- A visit does not add to the restarts to come. -/
theorem restarts_set (here : children[index]? = some child) (counts : child.Counts answer next) :
    restarts (children.set index next) ≤ restarts children := by
  have left := counts.counted.left
  have outer := outerSum_set here next
  have scope := scopeSum_set here next
  exact restarts_le (bounds_set here counts).scopeTries (by omega) (by omega)

/-- A visit leaves a serial group room for as many restarts. -/
theorem Rationed.set (rationed : Rationed children) (here : children[index]? = some child)
    (counts : child.Counts answer next) : Rationed (children.set index next) := by
  have fewer := restarts_set here counts
  constructor
  · intro other member
    rcases List.mem_or_eq_of_mem_set member with old | same
    · exact rationed.scope other old
    · exact same ▸ counts.scope (rationed.scope child (List.mem_of_getElem? here))
  · intro leaf member
    rw [(bounds_set here counts).ceiling]
    exact Nat.le_trans (Nat.add_le_add_left fewer _) (rationed.visited here counts member)

/-- Taking the failed child for finished changes no count. -/
theorem counts_finish (tree : Tree) : tree.Counts (.ok ()) tree.finish where
  counted := by constructor <;> simp [Standing.blank]
  task leaf same := by
    cases tree with
    | task old =>
        cases same
        exact ⟨old, rfl, rfl⟩
    | branch => cases same
  failed := nofun

/-! ### Restarting -/

/-- The children after a restart. -/
def restarted (branch : Branch) (scope : Bool) : List Tree :=
  (branch.2.take branch.reach).map (Tree.prepare scope) ++ branch.2.drop branch.reach

theorem mem_restarted {scope : Bool} {other : Tree} (member : other ∈ branch.restarted scope) :
    other ∈ branch.2 ∨ ∃ old ∈ branch.2, other = old.prepare scope := by
  rcases List.mem_append.mp member with prepared | kept
  · obtain ⟨old, inside, same⟩ := List.mem_map.mp prepared
    exact .inr ⟨old, List.mem_of_mem_take inside, same.symm⟩
  · exact .inl (List.mem_of_mem_drop kept)

theorem outerSum_restarted (branch : Branch) (scope : Bool) :
    outerSum (branch.restarted scope) ≤ outerSum branch.2 := by
  apply sum_retried fun child => child.standing.outerLeft
  intro child
  rw [Tree.standing_prepare]
  exact Standing.outerLeft_prepare scope

theorem scopeSum_restarted (branch : Branch) :
    scopeSum (branch.restarted false) ≤ scopeSum branch.2 := by
  apply sum_retried fun child => child.standing.scopeLeft
  intro child
  rw [Tree.standing_prepare]
  exact child.standing.scopeLeft_prepare

theorem scopeSum_le (scope : ∀ child ∈ children, child.standing.scopeLeft ≤ child.standing.maxTries - 1) :
    scopeSum children ≤ scopeTries children :=
  List.sum_le_sum scope

/-- A restart keeps each child within its scope. -/
theorem scope_restarted {scope : Bool}
    (within : ∀ child ∈ branch.2, child.standing.scopeLeft ≤ child.standing.maxTries - 1) :
    ∀ child ∈ branch.restarted scope, child.standing.scopeLeft ≤ child.standing.maxTries - 1 := by
  intro child member
  rcases mem_restarted member with old | ⟨old, inside, rfl⟩
  · exact within child old
  · rw [Tree.standing_prepare]
    cases scope with
    | true => exact Nat.le_of_eq old.standing.scopeLeft_new
    | false => exact Nat.le_trans old.standing.scopeLeft_prepare (within old inside)

theorem bounds_restarted (branch : Branch) (scope : Bool) :
    SameBounds (branch.restarted scope) branch.2 := by
  have prepared : (fun child : Tree => child.standing.blank) ∘ Tree.prepare scope =
      fun child => child.standing.blank :=
    funext fun child => by simp
  rw [SameBounds, restarted, List.map_append, List.map_map, prepared, ← List.map_append,
    List.take_append_drop]

/-- A restart uses up one of those to come: the failure that it answers pays for it. -/
theorem Rationed.restarts_lt {failure : JobFailure} (rationed : Rationed branch.2)
    (here : branch.2[index]? = some child) (counts : child.Counts (failedBy failure) failed)
    (may : failed.standing.mayTry) :
    restarts ((branch.put index failed).restarted failed.standing.newScope) < restarts branch.2 := by
  have visited : Rationed (branch.put index failed).2 := rationed.set here counts
  have bounds : SameBounds ((branch.put index failed).restarted failed.standing.newScope) branch.2 :=
    (bounds_restarted _ _).trans (bounds_set here counts)
  obtain ⟨unknown, known⟩ := counts.failed failure rfl
  obtain ⟨inScope, outside⟩ := counts.counted.failed unknown known
  have left := counts.counted.left
  have outer := outerSum_set here failed
  have scope := scopeSum_set here failed
  have outer' := outerSum_restarted (branch.put index failed) failed.standing.newScope
  apply Branch.restarts_lt bounds.scopeTries
  -- Either a new scope is opened, or another try of the scope is used up while no scope is added.
  by_cases spent : failed.standing.remainingTries = 0
  · right
    have total : 0 < failed.standing.remainingTotalTries :=
      (Standing.mayTry_eq_true.mp may).resolve_left (by omega)
    have each : ∀ child ∈ (branch.put index failed).restarted failed.standing.newScope,
        child.standing.scopeLeft ≤ child.standing.maxTries - 1 := scope_restarted visited.scope
    have scope' := scopeSum_le each
    rw [bounds.scopeTries] at scope'
    exact ⟨Nat.lt_of_le_of_lt outer' (by have := outside spent total; simp only [put]; omega), scope'⟩
  · left
    have newScope : failed.standing.newScope = false :=
      Standing.newScope_eq_false.mpr (Nat.pos_of_ne_zero spent)
    have scope' := scopeSum_restarted (branch.put index failed)
    rw [newScope] at outer' ⊢
    have := inScope (Nat.pos_of_ne_zero spent)
    simp only [put] at outer' scope' ⊢
    exact ⟨by omega, by omega⟩

/-- A restart leaves room for those that are still to come. -/
theorem Rationed.restarted {failure : JobFailure} (rationed : Rationed branch.2)
    (here : branch.2[index]? = some child) (counts : child.Counts (failedBy failure) failed)
    (may : failed.standing.mayTry) :
    Rationed ((branch.put index failed).restarted failed.standing.newScope) := by
  have visited : Rationed (branch.put index failed).2 := rationed.set here counts
  have bounds : SameBounds ((branch.put index failed).restarted failed.standing.newScope) branch.2 :=
    (bounds_restarted _ _).trans (bounds_set here counts)
  have fewer := rationed.restarts_lt here counts may
  constructor
  · exact scope_restarted visited.scope
  · intro leaf member
    rw [bounds.ceiling]
    rcases mem_restarted member with old | ⟨old, inside, same⟩
    · have := rationed.visited here counts old
      omega
    · cases old with
      | branch => cases same
      | task old =>
          cases same
          have := rationed.visited here counts inside
          have counted : (old.prepare failed.standing.newScope).standing.totalTried =
              old.standing.totalTried + 1 := rfl
          omega

/-! ## Passes -/

/-- All nodes keep to what their groups allow. -/
def Sparing (branch : Branch) : Prop := (Tree.branch branch.1 branch.2).Every Tree.Capped

theorem sparing_serial (serial : branch.group.isSerial) :
    Sparing branch ↔ Rationed branch.2 ∧ ∀ child ∈ branch.2, child.Every Tree.Capped := by
  have serial : branch.1.isSerial = true := serial
  simp [Sparing, Tree.Capped, serial]

theorem sparing_parallel (parallel : branch.group.isSerial = false) :
    Sparing branch ↔ (∀ child ∈ branch.2, child.standing.Within) ∧
      ∀ child ∈ branch.2, child.Every Tree.Capped := by
  have parallel : branch.1.isSerial = false := parallel
  simp [Sparing, Tree.Capped, parallel]

/-- How the group stands does not matter to its children. -/
theorem Sparing.group (sparing : Sparing branch) (same : last.2 = branch.2)
    (kind : last.1.isSerial = branch.1.isSerial) : Sparing last := by
  obtain ⟨here, below⟩ := Tree.every_branch.mp sparing
  refine Tree.every_branch.mpr ⟨?_, fun child member => below child (same ▸ member)⟩
  simp only [Tree.Capped] at here ⊢
  rwa [same, kind]

theorem every_capped_prepare {tree : Tree} (capped : tree.Every Tree.Capped) (scope : Bool) :
    (tree.prepare scope).Every Tree.Capped := by
  cases tree with
  | task leaf => exact Tree.every_task.mpr fun _ => rfl
  | branch group children =>
      exact @Sparing.group (group, children) (group.prepare scope, children) capped rfl
        (Group.isSerial_setCursor _ _)

theorem every_capped_finish {tree : Tree} (capped : tree.Every Tree.Capped) :
    tree.finish.Every Tree.Capped := by
  cases tree with
  | task leaf => exact Tree.every_task.mpr nofun
  | branch group children =>
      exact @Sparing.group (group, children)
        ({ group with standing := { group.standing with checking := .finished } }, children) capped
        rfl rfl

theorem Sparing.put (sparing : Sparing branch) (here : branch.2[index]? = some child)
    (counts : child.Counts answer next) (capped : next.Every Tree.Capped) :
    Sparing (branch.put index next) := by
  have below : (∀ other ∈ branch.2, other.Every Tree.Capped) →
      ∀ other ∈ (branch.put index next).2, other.Every Tree.Capped := by
    intro below other member
    rcases List.mem_or_eq_of_mem_set member with old | same
    · exact below other old
    · exact same ▸ capped
  cases serial : branch.group.isSerial with
  | true =>
      obtain ⟨rationed, others⟩ := (sparing_serial serial).mp sparing
      exact (@sparing_serial (branch.put index next) serial).mpr
        ⟨rationed.set here counts, below others⟩
  | false =>
      obtain ⟨within, others⟩ := (sparing_parallel serial).mp sparing
      have each : ∀ other ∈ (branch.put index next).2, other.standing.Within := by
        intro other member
        rcases List.mem_or_eq_of_mem_set member with old | same
        · exact within other old
        · exact same ▸ (within child (List.mem_of_getElem? here)).counted counts.counted
      exact (@sparing_parallel (branch.put index next) serial).mpr ⟨each, below others⟩

theorem Sparing.answered {failure : JobFailure} {again : Except Halt Bool} (sparing : Sparing branch)
    (here : branch.2[index]? = some child) (counts : child.Counts (failedBy failure) failed)
    (capped : failed.Every Tree.Capped)
    (answers : Answers (branch.put index failed) index failed failure again last) :
    Sparing last := by
  have put := sparing.put here counts capped
  have placed := getElem?_put_self here failed
  have kind := answers.isSerial
  have below := answers.all (Tree.every_branch.mp put).2 capped (every_capped_finish capped)
    fun _ scope capped => every_capped_prepare capped scope
  rcases answers.listed with same | same | ⟨may, same⟩
  · exact put.group same kind
  · have finished := put.put placed (counts_finish failed) (every_capped_finish capped)
    exact finished.group same kind
  -- Only a restart needs an argument: a serial group pays for it with what the failure has used up.
  · cases serial : branch.group.isSerial with
    | true =>
        refine (sparing_serial (kind.trans serial)).mpr ⟨?_, below⟩
        have restarted := ((sparing_serial serial).mp sparing).1.restarted here counts may
        rw [same, retried, if_pos (by exact serial)]
        exact restarted
    | false =>
        refine (sparing_parallel (kind.trans serial)).mpr ⟨?_, below⟩
        have within := ((@sparing_parallel (branch.put index failed) serial).mp put).1
        rw [same, retried, if_neg (by rw [Bool.not_eq_true]; exact serial)]
        intro other member
        rcases List.mem_or_eq_of_mem_set member with old | same
        · exact within other old
        · rw [same, Tree.standing_prepare]
          exact (within failed (List.mem_of_getElem? placed)).prepare may

/-- The visits that keep to what is allowed. -/
def sparingCourse : Course Tree := fun child _ answer next _ =>
  child.standing.isFinished = false → child.Every Tree.Capped →
    child.Counts answer next ∧ next.Every Tree.Capped

theorem Pass.sparing {indices : List Nat} {world after : World} {status : Checking}
    {ended : Except Halt Checking}
    (pass : Pass sparingCourse indices branch world status ended last after)
    (sparing : Sparing branch) :
    branch.1.standing.Counted last.1.standing ∧ Sparing last := by
  have below : ∀ {branch : Branch} {index : Nat} {child : Tree}, Sparing branch →
      branch.2[index]? = some child → child.Every Tree.Capped := fun sparing here =>
    (Tree.every_branch.mp sparing).2 _ (List.mem_of_getElem? here)
  have answered : ∀ {branch next : Branch} {index : Nat} {child : Tree} {failure : JobFailure}
      {again : Except Halt Bool}, Answers branch index child failure again next →
      branch.1.standing.Counted next.1.standing := by
    intro branch next index child failure again answers
    rcases answers.standing with same | same <;> rw [same]
    · exact .refl _
    · exact branch.1.standing.counted_exhaust
  -- By induction on the pass. What the group itself has counted changes only if it is exhausted.
  induction pass with
  | done => exact ⟨.refl _, sparing⟩
  | skips _ _ ih => exact ih sparing
  | passes here unfinished visit _ ih =>
      obtain ⟨counts, capped⟩ := visit unfinished (below sparing here)
      have put := sparing.put here counts capped
      obtain ⟨counted, sparing⟩ := ih (put.group rfl (Group.isSerial_setFailed _ _))
      refine ⟨?_, sparing⟩
      rwa [show ((_ : Branch).cleared _).1.standing = _ from Group.standing_setFailed _ _] at counted
  | fails here unfinished visit answers _ ih =>
      obtain ⟨counts, capped⟩ := visit unfinished (below sparing here)
      obtain ⟨counted, kept⟩ := ih (sparing.answered here counts capped answers)
      exact ⟨(answered answers).trans counted, kept⟩
  | breaks here unfinished visit answers =>
      obtain ⟨counts, capped⟩ := visit unfinished (below sparing here)
      have counted := answered answers
      exact ⟨counted, sparing.answered here counts capped answers⟩
  | halts here unfinished visit =>
      obtain ⟨counts, capped⟩ := visit unfinished (below sparing here)
      exact ⟨.refl _, sparing.put here counts capped⟩

theorem counted_closed (branch : Branch) (status : Checking) :
    branch.1.standing.Counted (branch.closed status).1.standing := by
  unfold closed
  split
  · exact branch.1.standing.counted_exhaust.trans (.of_same rfl rfl rfl fun known => known)
  · exact .of_same rfl rfl rfl fun known => known

/-- A group stays within its tries, and so do its children. -/
theorem Sweeps.sparing {now : Instant} {world after : World} {answer : Except Halt Unit}
    (sweeps : Sweeps now sparingCourse branch world answer last after) (sparing : Sparing branch) :
    (Tree.branch branch.1 branch.2).Counts answer (.branch last.1 last.2) ∧ Sparing last := by
  have started : Sparing (branch.begun now) := sparing.group rfl (Group.isSerial_begun _ now)
  have begun : branch.1.standing.Counted (branch.begun now).1.standing := by
    obtain ⟨time, begins⟩ := Group.standing_begun branch.1 now
    rw [show (branch.begun now).1.standing = _ from begins]
    exact .of_same rfl rfl rfl fun known => known
  have group : ∀ leaf, Tree.branch last.1 last.2 = .task leaf → ∃ old,
      Tree.branch branch.1 branch.2 = .task old ∧
        leaf.standing.totalTried = old.standing.totalTried :=
    fun _ same => Tree.noConfusion same
  cases sweeps with
  | halts pass =>
      obtain ⟨counted, sparing⟩ := pass.sparing started
      refine ⟨⟨begun.trans counted, group, fun failure ended => ?_⟩, sparing⟩
      cases ended
      exact absurd rfl (pass.hard failure)
  | @closes passed _ _ status _ pass closes =>
      obtain ⟨counted, sparing⟩ := pass.sparing started
      replace counted := (begun.trans counted).trans (counted_closed passed status)
      have closed : Sparing (passed.closed status) := sparing.group rfl rfl
      -- A group that comes to a result had none before.
      have unknown : isPending status (passed.closed status) = false →
          branch.1.standing.result = .unknown := fun settled =>
        Decidable.byContradiction fun known => counted.known known (settled_unknown settled)
      cases closes with
      | pending => exact ⟨⟨counted, group, nofun⟩, closed⟩
      | overdue => exact ⟨⟨counted, group, nofun⟩, closed⟩
      | fails settled failure =>
          refine ⟨⟨?_, group, fun _ _ => ⟨unknown settled, fun unknown => ?_⟩⟩, closed.group rfl rfl⟩
          · exact counted.trans (.of_same rfl rfl rfl fun known =>
              absurd (settled_unknown settled) known)
          · rw [show (passed.closed status).aggregate (passed.closed status).span = .unknown
              from unknown] at failure
            cases failure
      | moves settled =>
          refine ⟨⟨?_, group, nofun⟩, closed.group rfl (Group.isSerial_setCursor _ _)⟩
          apply counted.trans
          change Standing.Counted _ (passed.closed status).moved.waiting.1.standing
          rw [waiting, standing_moved]
          exact .of_same rfl rfl rfl fun known => absurd (settled_unknown settled) known
      | ends settled =>
          refine ⟨⟨?_, group, nofun⟩, closed.group rfl (Group.isSerial_setCursor _ _)⟩
          apply counted.trans
          change Standing.Counted _ (passed.closed status).summed.moved.1.standing
          rw [standing_moved]
          exact .of_same rfl rfl rfl fun known => absurd (settled_unknown settled) known

end Branch

/-- Beginning an attempt counts none, as it was counted when it was prepared. -/
theorem Task.Attempted.counts {task found : Task} {answer : Except Halt Unit}
    (attempted : Attempted task found) (unknown : task.standing.result = .unknown)
    (unfailed : ∀ failure, answer ≠ failedBy failure) :
    (Tree.task task).Counts answer (.task found) ∧ (Tree.task found).Capped := by
  obtain ⟨time, resolved, build, oldBuild, rfl⟩ := attempted
  refine ⟨⟨.of_same rfl rfl rfl fun known => known, fun leaf same => ⟨task, rfl, ?_⟩, ?_⟩,
    fun _ => unknown⟩
  · cases same
    rfl
  · exact fun failure ended => absurd ended (unfailed failure)

/-- The end of an attempt counts none either. -/
theorem Task.Attempted.counts_ended {task found : Task} {answer : Except Halt Unit}
    (attempted : Attempted task found) (unknown : task.standing.result = .unknown)
    {result : BuildResult} (known : result ≠ .unknown) :
    (Tree.task task).Counts answer (.task (found.ended result)) ∧
      (Tree.task (found.ended result)).Capped := by
  obtain ⟨time, resolved, build, oldBuild, rfl⟩ := attempted
  refine ⟨⟨.of_same rfl rfl rfl fun _ => known, fun leaf same => ⟨task, rfl, ?_⟩,
    fun _ _ => ⟨unknown, known⟩⟩, nofun⟩
  cases same
  rfl

/-- A step of an invocation counts no attempt. -/
theorem Task.Follows.counts {now : Instant} {task next : Task} {world after : World}
    {answer : Except Halt Unit} (follows : Follows now task world answer next after)
    (unknown : task.standing.result = .unknown) :
    (Tree.task task).Counts answer (.task next) ∧ (Tree.task next).Capped := by
  cases follows with
  | missing => exact (Attempted.refl task).counts_ended unknown BuildResult.noConfusion
  | waits finds begins => exact (finds.attempted.trans begins.attempted).counts unknown nofun
  | ends finds begins _ _ known =>
      exact (finds.attempted.trans begins.attempted).counts_ended unknown known
  | strays attempted _ _ strays =>
      apply attempted.counts unknown
      intro failure failed
      cases failed
      cases strays
  | lost finds begins => exact (finds.attempted.trans begins.attempted).counts unknown nofun

/-- Sweeps keep to what is allowed. -/
theorem Tree.Sweeps.sparing {now : Instant} {tree next : Tree} {world after : World}
    {answer : Except Halt Unit} (sweeps : Tree.Sweeps now tree world answer next after)
    (unfinished : tree.standing.isFinished = false) (capped : tree.Every Capped) :
    tree.Counts answer next ∧ next.Every Capped := by
  refine sweeps.rule (p := Branch.sparingCourse) ?_ ?_ unfinished capped
  · intro leaf world answer leaf' after follows unfinished capped
    obtain ⟨counts, capped⟩ := follows.counts (every_task.mp capped unfinished)
    exact ⟨counts, every_task.mpr capped⟩
  · intro group children world answer group' children' after sweeps unfinished capped
    exact (sweeps.mono fun visit => visit.2).sparing capped

end BuildFlow
