import BuildFlow.Proofs.Tree.Wild
/-!
Counts of tries that stay far enough below their bound. The restarts of a serial group count
attempts of all its children in reach, also of those that have no tries left, and an abort sets the
counts of a group to the tries it may have at most. So the count of a child can get as far as those
tries and all restarts together. A parallel group tries a child only while it has tries left.
-/
namespace BuildFlow

open Act NodeAct

namespace Standing

/-- The larger one of the two counts of tries. -/
def spent (standing : Standing) : Nat := max standing.tried standing.totalTried

/-- The larger one of the two bounds on tries. -/
def peak (standing : Standing) : Nat := max standing.maxTries standing.totalMaxTries

theorem spent_prepare (standing : Standing) (scope : Bool) :
    (standing.prepare scope).spent ≤ standing.spent + 1 := by
  cases scope with
  | true => simp [spent, prepare]
  | false => simp [spent, prepare]

@[simp] theorem peak_prepare (standing : Standing) (scope : Bool) :
    (standing.prepare scope).peak = standing.peak := rfl

theorem canPrepare_of_spent {standing : Standing} (room : standing.spent + 1 < triesBound)
    (scope : Bool) : standing.canPrepare scope := by
  have tried : standing.tried ≤ standing.spent := Nat.le_max_left _ _
  have total : standing.totalTried ≤ standing.spent := Nat.le_max_right _ _
  simp only [canPrepare, Bool.and_eq_true, Bool.or_eq_true, decide_eq_true_eq]
  exact ⟨.inr (by omega), by omega⟩

variable {before after : Standing}

theorem Counted.peak (counted : Counted before after) : after.peak = before.peak := by
  unfold Standing.peak
  rw [counted.maxTries, counted.totalMaxTries]

/-- A visit leaves the counts alone, or sets them to their bounds. -/
theorem Counted.spent (counted : Counted before after) :
    after.spent = before.spent ∨ after.spent = before.peak := by
  unfold Standing.spent Standing.peak
  rcases counted.tries with ⟨tried, total⟩ | ⟨tried, total⟩
  · exact .inl (by rw [tried, total])
  · exact .inr (by rw [tried, total])

/-- The counts of a child of a parallel group: as long as it has tries left, one more can be
counted. A child whose scopes allow no try at all is still tried within its own one. -/
structure Paced (standing : Standing) : Prop where
  bounded : standing.peak < triesBound
  divides : standing.maxTries ∣ standing.totalMaxTries
  within : standing.Within
  alone : standing.totalMaxTries = 0 →
    standing.totalTried ≤ standing.tried ∧ standing.tried ≤ max 1 standing.maxTries

theorem Paced.counted (paced : before.Paced) (counted : Counted before after) : after.Paced where
  bounded := counted.peak ▸ paced.bounded
  divides := by
    rw [counted.maxTries, counted.totalMaxTries]
    exact paced.divides
  within := paced.within.counted counted
  alone none := by
    rw [counted.totalMaxTries] at none
    rw [counted.maxTries]
    have alone := paced.alone none
    rcases counted.tries with ⟨tried, total⟩ | ⟨tried, total⟩
    · rw [tried, total]
      exact alone
    · rw [tried, total]
      omega

/-- Without tries in outer scopes a try that is left is one of the current scope. -/
theorem own_of_mayTry {standing : Standing} (may : standing.mayTry)
    (none : standing.totalMaxTries = 0) :
    standing.newScope = false ∧ standing.tried < standing.maxTries := by
  have left : standing.tried < standing.maxTries := by
    rw [mayTry_eq_true, remainingTries, remainingTotalTries] at may
    omega
  constructor
  · exact newScope_eq_false.mpr (by unfold remainingTries; omega)
  · exact left

section

variable {standing : Standing} (paced : standing.Paced) (may : standing.mayTry)
include paced may

theorem Paced.canPrepare : standing.canPrepare standing.newScope := by
  have bounded := paced.bounded
  have peak : standing.maxTries ≤ standing.peak ∧ standing.totalMaxTries ≤ standing.peak :=
    ⟨Nat.le_max_left _ _, Nat.le_max_right _ _⟩
  simp only [Standing.canPrepare, Bool.and_eq_true, Bool.or_eq_true, decide_eq_true_eq]
  by_cases none : standing.totalMaxTries = 0
  · have own := own_of_mayTry may none
    have alone := paced.alone none
    exact ⟨.inr (by omega), by omega⟩
  · -- The counts of the next attempt are within what the scopes allow.
    obtain ⟨-, inScope, inAll, -⟩ :=
      paced.within.prepare may (Nat.pos_of_ne_zero none) paced.divides
    change _ ≤ standing.maxTries at inScope
    change standing.totalTried + 1 ≤ standing.totalMaxTries at inAll
    constructor
    · cases scope : standing.newScope with
      | true => exact .inl rfl
      | false =>
          rw [scope] at inScope
          change standing.tried + 1 ≤ _ at inScope
          exact .inr (by omega)
    · omega

theorem Paced.prepare : (standing.prepare standing.newScope).Paced where
  bounded := paced.bounded
  divides := paced.divides
  within := paced.within.prepare may
  alone none := by
    obtain ⟨scope, left⟩ := own_of_mayTry may none
    have alone := paced.alone none
    rw [scope]
    change standing.totalTried + 1 ≤ standing.tried + 1 ∧ standing.tried + 1 ≤ max 1 standing.maxTries
    omega

end

end Standing

namespace Branch

/-- The counts of the children of a serial group leave room for the restarts to come. -/
structure Roomy (children : List Tree) : Prop where
  spare : restarts children < ceiling children
  bounded : ∀ child ∈ children, child.standing.peak + ceiling children < triesBound
  room : ∀ child ∈ children,
    child.standing.spent + restarts children ≤ child.standing.peak + ceiling children

variable {children : List Tree} {branch last : Branch} {index : Nat} {child failed next : Tree}
  {answer : Except Halt Unit} {failure : JobFailure}

section

variable (roomy : Roomy children) (here : children[index]? = some child)
  (counts : child.Counts answer next)
include roomy here counts

/-- After a visit there is room for as many restarts as before. -/
theorem Roomy.visited {other : Tree} (member : other ∈ children.set index next) :
    other.standing.peak + ceiling children < triesBound ∧
      other.standing.spent + restarts children ≤ other.standing.peak + ceiling children := by
  rcases List.mem_or_eq_of_mem_set member with old | same
  · exact ⟨roomy.bounded other old, roomy.room other old⟩
  · have inside := List.mem_of_getElem? here
    have spare := roomy.spare
    rw [same, counts.counted.peak]
    constructor
    · exact roomy.bounded child inside
    · rcases counts.counted.spent with kept | exhausted
      · rw [kept]
        exact roomy.room child inside
      · omega

theorem Roomy.set : Roomy (children.set index next) := by
  have fewer := restarts_set here counts
  have spare := roomy.spare
  have same := (bounds_set here counts).ceiling
  constructor
  case spare => omega
  case bounded =>
    intro other member
    rw [same]
    exact (roomy.visited here counts member).1
  case room =>
    intro other member
    have room := (roomy.visited here counts member).2
    omega

end

section

variable (roomy : Roomy branch.2) (rationed : Rationed branch.2)
  (here : branch.2[index]? = some child) (counts : child.Counts (failedBy failure) failed)
  (may : failed.standing.mayTry)
include roomy rationed here counts may

/-- Where a child may be tried again, all children can be. -/
theorem Roomy.canPrepare {other : Tree} (member : other ∈ (branch.put index failed).2) (scope : Bool) :
    other.canPrepare scope := by
  have fewer := rationed.restarts_lt here counts may
  obtain ⟨bounded, room⟩ := roomy.visited here counts member
  apply Standing.canPrepare_of_spent
  omega

theorem Roomy.restarted : Roomy ((branch.put index failed).restarted failed.standing.newScope) := by
  have fewer := rationed.restarts_lt here counts may
  have spare := roomy.spare
  have bounds : SameBounds ((branch.put index failed).restarted failed.standing.newScope) branch.2 :=
    (bounds_restarted _ _).trans (bounds_set here counts)
  have same := bounds.ceiling
  constructor
  case spare => omega
  case bounded =>
    intro other member
    rw [same]
    rcases mem_restarted member with old | ⟨old, inside, rfl⟩
    · exact (roomy.visited here counts old).1
    · rw [Tree.standing_prepare, Standing.peak_prepare]
      exact (roomy.visited here counts inside).1
  case room =>
    intro other member
    rw [same]
    rcases mem_restarted member with old | ⟨old, inside, rfl⟩
    · have := (roomy.visited here counts old).2
      omega
    · -- The restart counts one more attempt, and there is one restart less to come.
      have room := (roomy.visited here counts inside).2
      have once := old.standing.spent_prepare failed.standing.newScope
      rw [Tree.standing_prepare, Standing.peak_prepare]
      omega

end

end Branch

/-- The counts of the children of a node stay below their bound. -/
def Tree.Roomy : Tree → Prop
  | .task _ => True
  | .branch group children =>
      if group.isSerial then Branch.Roomy children
      else ∀ child ∈ children, child.standing.Paced

namespace Branch

variable {branch last : Branch} {index : Nat} {child failed next : Tree}
  {answer : Except Halt Unit} {failure : JobFailure}

/-- All counts below the group stay below their bound. -/
def Spacious (branch : Branch) : Prop := (Tree.branch branch.1 branch.2).Every Tree.Roomy

theorem spacious_serial (serial : branch.group.isSerial) :
    Spacious branch ↔ Roomy branch.2 ∧ ∀ child ∈ branch.2, child.Every Tree.Roomy := by
  have serial : branch.1.isSerial = true := serial
  simp [Spacious, Tree.Roomy, serial]

theorem spacious_parallel (parallel : branch.group.isSerial = false) :
    Spacious branch ↔ (∀ child ∈ branch.2, child.standing.Paced) ∧
      ∀ child ∈ branch.2, child.Every Tree.Roomy := by
  have parallel : branch.1.isSerial = false := parallel
  simp [Spacious, Tree.Roomy, parallel]

/-- How the group stands does not matter to its children. -/
theorem Spacious.group (spacious : Spacious branch) (same : last.2 = branch.2)
    (kind : last.1.isSerial = branch.1.isSerial) : Spacious last := by
  obtain ⟨here, below⟩ := Tree.every_branch.mp spacious
  refine Tree.every_branch.mpr ⟨?_, fun child member => below child (same ▸ member)⟩
  simp only [Tree.Roomy] at here ⊢
  rwa [same, kind]

theorem every_roomy_prepare {tree : Tree} (roomy : tree.Every Tree.Roomy) (scope : Bool) :
    (tree.prepare scope).Every Tree.Roomy := by
  cases tree with
  | task leaf => exact Tree.every_task.mpr trivial
  | branch group children =>
      exact @Spacious.group (group, children) (group.prepare scope, children) roomy rfl
        (Group.isSerial_setCursor _ _)

theorem every_roomy_finish {tree : Tree} (roomy : tree.Every Tree.Roomy) :
    tree.finish.Every Tree.Roomy := by
  cases tree with
  | task leaf => exact Tree.every_task.mpr trivial
  | branch group children =>
      exact @Spacious.group (group, children)
        ({ group with standing := { group.standing with checking := .finished } }, children) roomy
        rfl rfl

theorem Spacious.put (spacious : Spacious branch) (here : branch.2[index]? = some child)
    (counts : child.Counts answer next) (roomy : next.Every Tree.Roomy) :
    Spacious (branch.put index next) := by
  have below : (∀ other ∈ branch.2, other.Every Tree.Roomy) →
      ∀ other ∈ (branch.put index next).2, other.Every Tree.Roomy := by
    intro below other member
    rcases List.mem_or_eq_of_mem_set member with old | same
    · exact below other old
    · exact same ▸ roomy
  cases serial : branch.group.isSerial with
  | true =>
      obtain ⟨room, others⟩ := (spacious_serial serial).mp spacious
      exact (@spacious_serial (branch.put index next) serial).mpr
        ⟨room.set here counts, below others⟩
  | false =>
      obtain ⟨paced, others⟩ := (spacious_parallel serial).mp spacious
      have each : ∀ other ∈ (branch.put index next).2, other.standing.Paced := by
        intro other member
        rcases List.mem_or_eq_of_mem_set member with old | same
        · exact paced other old
        · exact same ▸ (paced child (List.mem_of_getElem? here)).counted counts.counted
      exact (@spacious_parallel (branch.put index next) serial).mpr ⟨each, below others⟩

section

variable (sparing : Sparing branch) (spacious : Spacious branch)
  (here : branch.2[index]? = some child) (counts : child.Counts (failedBy failure) failed)
  (roomy : failed.Every Tree.Roomy)
include sparing spacious here counts roomy

/-- A new attempt can always be counted. -/
theorem Spacious.retriable (may : failed.standing.mayTry) :
    ((branch.put index failed).noted failed).retriable failed := by
  have kind : ((branch.put index failed).noted failed).group.isSerial = branch.group.isSerial :=
    Group.isSerial_setFailed _ _
  have reach : ((branch.put index failed).noted failed).2 = (branch.put index failed).2 := rfl
  unfold Branch.retriable
  cases serial : branch.group.isSerial with
  | true =>
      rw [if_pos (kind.trans serial), List.all_eq_true]
      intro other member
      have rationed := ((sparing_serial serial).mp sparing).1
      exact ((spacious_serial serial).mp spacious).1.canPrepare rationed here counts may
        (List.mem_of_mem_take member) _
  | false =>
      rw [if_neg (by rw [kind, serial]; exact Bool.false_ne_true)]
      have paced := ((@spacious_parallel (branch.put index failed) serial).mp
        (spacious.put here counts roomy)).1
      exact (paced failed (List.mem_of_getElem? (getElem?_put_self here failed))).canPrepare may

/-- The answer to a failure does not overdraw a count. -/
theorem Spacious.answers {again : Except Halt Bool}
    (answers : Answers (branch.put index failed) index failed failure again last) :
    Ends Halt.Counted again := by
  cases answers with
  | overdraws _ may _ overdrawn =>
      have fits := spacious.retriable sparing here counts roomy may
      rw [overdrawn] at fits
      cases fits
  | _ => exact ends_ok _

theorem Spacious.answered {again : Except Halt Bool}
    (answers : Answers (branch.put index failed) index failed failure again last) :
    Spacious last := by
  have put := spacious.put here counts roomy
  have placed := getElem?_put_self here failed
  have kind := answers.isSerial
  have below := answers.all (Tree.every_branch.mp put).2 roomy (every_roomy_finish roomy)
    fun _ scope roomy => every_roomy_prepare roomy scope
  -- The group stays, finishes the child or tries again; only a new attempt takes up room.
  rcases answers.listed with same | same | ⟨may, same⟩
  · exact put.group same kind
  · have finished := put.put placed (counts_finish failed) (every_roomy_finish roomy)
    exact finished.group same kind
  · cases serial : branch.group.isSerial with
    | true =>
        refine (spacious_serial (kind.trans serial)).mpr ⟨?_, below⟩
        have rationed := ((sparing_serial serial).mp sparing).1
        have restarted :=
          ((spacious_serial serial).mp spacious).1.restarted rationed here counts may
        rw [same, retried, if_pos (by exact serial)]
        exact restarted
    | false =>
        refine (spacious_parallel (kind.trans serial)).mpr ⟨?_, below⟩
        have paced := ((@spacious_parallel (branch.put index failed) serial).mp put).1
        rw [same, retried, if_neg (by rw [Bool.not_eq_true]; exact serial)]
        intro other member
        rcases List.mem_or_eq_of_mem_set member with old | same
        · exact paced other old
        · rw [same, Tree.standing_prepare]
          exact (paced failed (List.mem_of_getElem? placed)).prepare may

end

/-! ## Sweeps -/

/-- The visits that leave all counts below their bound. -/
def spaciousCourse : Course Tree := fun child _ answer next _ =>
  child.standing.isFinished = false → child.Every Tree.Capped → child.Every Tree.Roomy →
    Ends Halt.Counted answer ∧ next.Every Tree.Roomy

/-- Visits that keep to what is allowed, and to what can be counted. -/
def steadyCourse : Course Tree := fun child world answer next after =>
  sparingCourse child world answer next after ∧ spaciousCourse child world answer next after

theorem Pass.spacious {indices : List Nat} {world after : World} {status : Checking}
    {ended : Except Halt Checking}
    (pass : Pass steadyCourse indices branch world status ended last after)
    (sparing : Sparing branch) (spacious : Spacious branch) :
    Ends Halt.Counted ended ∧ Spacious last := by
  -- What is needed of the children of a group at any point of the pass.
  have visited : ∀ {branch : Branch} {index : Nat} {child next : Tree} {world there : World}
      {answer : Except Halt Unit}, Sparing branch → Spacious branch →
      branch.2[index]? = some child → child.standing.isFinished = false →
      steadyCourse child world answer next there →
      child.Counts answer next ∧ next.Every Tree.Capped ∧ Ends Halt.Counted answer ∧
        next.Every Tree.Roomy := by
    intro branch index child next world there answer sparing spacious here unfinished visit
    have inside := List.mem_of_getElem? here
    have capped := (Tree.every_branch.mp sparing).2 child inside
    have roomy := (Tree.every_branch.mp spacious).2 child inside
    obtain ⟨counts, capped'⟩ := visit.1 unfinished capped
    exact ⟨counts, capped', visit.2 unfinished capped roomy⟩
  induction pass with
  | done => exact ⟨ends_ok _, spacious⟩
  | skips _ _ ih => exact ih sparing spacious
  | passes here unfinished visit _ ih =>
      obtain ⟨counts, capped, -, roomy⟩ := visited sparing spacious here unfinished visit
      apply ih
      · exact (sparing.put here counts capped).group rfl (Group.isSerial_setFailed _ _)
      · exact (spacious.put here counts roomy).group rfl (Group.isSerial_setFailed _ _)
  | fails here unfinished visit answers _ ih =>
      obtain ⟨counts, capped, -, roomy⟩ := visited sparing spacious here unfinished visit
      apply ih
      · exact sparing.answered here counts capped answers
      · exact spacious.answered sparing here counts roomy answers
  | breaks here unfinished visit answers =>
      obtain ⟨counts, -, -, roomy⟩ := visited sparing spacious here unfinished visit
      constructor
      · exact (spacious.answers sparing here counts roomy answers).halts
      · exact spacious.answered sparing here counts roomy answers
  | halts here unfinished visit =>
      obtain ⟨counts, -, ends, roomy⟩ := visited sparing spacious here unfinished visit
      exact ⟨ends.halts, spacious.put here counts roomy⟩

theorem Sweeps.spacious {now : Instant} {world after : World}
    (sweeps : Sweeps now steadyCourse branch world answer last after) (sparing : Sparing branch)
    (spacious : Spacious branch) : Ends Halt.Counted answer ∧ Spacious last := by
  have started : Sparing (branch.begun now) := sparing.group rfl (Group.isSerial_begun _ now)
  have started' : Spacious (branch.begun now) := spacious.group rfl (Group.isSerial_begun _ now)
  cases sweeps with
  | halts pass =>
      obtain ⟨ends, spacious⟩ := pass.spacious started started'
      exact ⟨ends.halts, spacious⟩
  | @closes passed _ _ status _ pass closes =>
      have passed' : Spacious (passed.closed status) :=
        (pass.spacious started started').2.group rfl rfl
      constructor
      · cases closes with
        | overdue => exact ends_error nofun
        | fails => exact ends_error nofun
        | _ => exact ends_ok _
      · apply passed'.group closes.children
        cases closes with
        | pending => rfl
        | overdue => rfl
        | fails => rfl
        | moves => exact Group.isSerial_setCursor _ _
        | ends => exact Group.isSerial_setCursor _ _

end Branch

theorem Task.Reaches.steady {leaf next : Task} {answer : Except Halt Unit} {world after : World}
    (reaches : leaf.Reaches answer next) :
    Branch.steadyCourse (.task leaf) world answer (.task next) after := by
  constructor
  · intro unfinished capped
    have unknown := Tree.every_task.mp capped unfinished
    suffices (Tree.task leaf).Counts answer (.task next) ∧ (Tree.task next).Capped from
      ⟨this.1, Tree.every_task.mpr this.2⟩
    cases reaches with
    | goesOn attempted foreign =>
        apply attempted.counts unknown
        intro failure failed
        exact foreign _ failed
    | ends attempted known => exact attempted.counts_ended unknown known
  · exact fun _ _ _ => ⟨reaches.counted, Tree.every_task.mpr trivial⟩

namespace Tree

/-- A group is as steady in a sweep as its children are. -/
theorem steady_branch {now : Instant} {branch last : Branch} {world after : World}
    {answer : Except Halt Unit}
    (sweeps : Branch.Sweeps now Branch.steadyCourse branch world answer last after) :
    Branch.steadyCourse (.branch branch.1 branch.2) world answer (.branch last.1 last.2) after := by
  constructor
  · exact fun _ sparing => (sweeps.mono fun visit => visit.1).sparing sparing
  · exact fun _ sparing spacious => sweeps.spacious sparing spacious

theorem checkWithin_steady (sweep : Sweep) (levels : Nat) (report : Bool) :
    Branch.SoundFor .any Branch.steadyCourse levels (checkWithin sweep levels report) := by
  refine soundFor_checkWithin .any (fun _ => Branch.steadyCourse) ?_ ?_ levels report
  · exact fun _ report leaf host _ => ⟨trivial, (Task.reaches_check leaf sweep report host).steady⟩
  · intro levels branch host sound low fit
    apply (Branch.leads_checkFor sound low fit).mono
    exact fun _ _ ⟨_, low, sweeps⟩ => ⟨trivial, low, steady_branch sweeps⟩

/-- On any host a sweep keeps to what is allowed and to what can be counted. -/
theorem check_steady (sweep : Sweep) (report : Bool) {tree : Tree} (host : Host)
    (unfinished : tree.standing.isFinished = false) (capped : tree.Every Capped)
    (roomy : tree.Every Roomy) :
    Ends Halt.Counted (check sweep report tree host).1 ∧
      (check sweep report tree host).2.1.Every Capped ∧
      (check sweep report tree host).2.1.Every Roomy := by
  obtain ⟨-, ⟨sparing, spacious⟩, -⟩ :=
    checkWithin_steady sweep tree.height report tree host (Nat.le_refl _) trivial
  have capped' := (sparing unfinished capped).2
  obtain ⟨ends, roomy'⟩ := spacious unfinished capped roomy
  exact ⟨ends, capped', roomy'⟩

/-! ## Declared trees -/

/-- What the counts of the children of a node may come to stays below their bound. -/
def HasRoom : Tree → Prop
  | .task _ => True
  | .branch group children =>
      if group.isSerial then
        ∀ child ∈ children, child.standing.peak + Branch.ceiling children < triesBound
      else
        ∀ child ∈ children, child.standing.peak < triesBound ∧
          child.standing.maxTries ∣ child.standing.totalMaxTries

instance : DecidablePred HasRoom
  | .task _ => .isTrue trivial
  | .branch group children =>
      inferInstanceAs (Decidable
        (if group.isSerial then
          ∀ child ∈ children, child.standing.peak + Branch.ceiling children < triesBound
        else
          ∀ child ∈ children, child.standing.peak < triesBound ∧
            child.standing.maxTries ∣ child.standing.totalMaxTries))

/-- No count of tries in the tree can get to its bound. -/
def HasHeadroom (tree : Tree) : Prop := tree.Every HasRoom

end Tree

end BuildFlow
