import BuildFlow.Proofs.Draft.Fresh
import BuildFlow.Proofs.Draft.Remaining
import BuildFlow.Proofs.Naming
import BuildFlow.Proofs.Verdict
/-!
Whom a parallel group lists when it fails. The group notes a child when the child tells a failure, and
clears it when the child tells none. So every child that looks like a failure in the end is listed,
unless the build of that child was taken off its queue: this looks like a failure to the group, but the
child does not tell it.
-/
namespace BuildFlow

open Act NodeAct

namespace Tree

variable {tree next : Tree} {failed failed' : Table Nat String}

/-- The node looks like a failure to its parent, and not for a build that was taken off its queue. -/
def Fails (tree : Tree) : Prop :=
  tree.standing.propagatedResult = .failure ∧ tree.standing.result ≠ .dequeued

/-- The children of a group have ids of their own, and groups among them have children. -/
def Numbered : Tree → Prop
  | .task _ => True
  | .branch _ children => (children.map fun child => child.standing.id).Nodup ∧
      ∀ child ∈ children, ∀ group, child ≠ .branch group []

theorem id_of_layout (layout : next.blank = tree.blank) : next.standing.id = tree.standing.id := by
  have same : ∀ tree : Tree, tree.blank.standing.id = tree.standing.id := fun tree => by
    cases tree <;> rfl
  rw [← same next, layout, same]

theorem isUnchecked_of_layout (layout : next.blank = tree.blank) :
    next.standing.isUnchecked = tree.standing.isUnchecked := by
  rw [← isUnchecked_blank next, layout, isUnchecked_blank]

theorem numbered_blank {node : Tree} : node.blank.Numbered ↔ node.Numbered := by
  cases node with
  | task => exact Iff.rfl
  | branch group children =>
      have ids : (children.map blank).map (fun child => child.standing.id) =
          children.map fun child => child.standing.id := by
        rw [List.map_map]
        exact List.map_congr_left fun child _ => by cases child <;> rfl
      have empty : ∀ child : Tree, (∀ group, child.blank ≠ .branch group []) ↔
          ∀ group, child ≠ .branch group [] := by
        intro child
        cases child with
        | task leaf => simp [blank]
        | branch group below => simp [blank, blanks_eq]
      unfold Numbered blank
      rw [blanks_eq]
      simp only [ids, List.forall_mem_map, empty]

theorem every_numbered_blank : tree.blank.Every Numbered ↔ tree.Every Numbered :=
  every_blank.trans ⟨fun every => every.mono fun _ => numbered_blank.mp,
    fun every => every.mono fun _ => numbered_blank.mpr⟩

theorem numbered_of_layout (layout : next.blank = tree.blank) (numbered : tree.Every Numbered) :
    next.Every Numbered :=
  every_numbered_blank.mp (layout ▸ every_numbered_blank.mpr numbered)

/-- What a parallel group relies on for a child: one that it is done with is listed if it fails, and
one that it waits for is on course. -/
structure Noted (failed : Table Nat String) (tree : Tree) : Prop where
  listed : tree.standing.isFinished → tree.Fails →
    failed.get? tree.standing.id = some tree.sequence
  course : tree.standing.isFinished = false → tree.standing.isUnchecked = false → tree.OnCourse

/-- A parallel group has noted its children. -/
def Lists : Tree → Prop
  | .task _ => True
  | .branch group children =>
      group.isSerial = false → ∀ child ∈ children, child.Noted group.failed

theorem Noted.apart (noted : tree.Noted failed)
    (same : failed'.get? tree.standing.id = failed.get? tree.standing.id) : tree.Noted failed' :=
  ⟨fun finished fails => same.trans (noted.listed finished fails), noted.course⟩

theorem Lists.prepare (lists : tree.Lists) (scope : Bool) : (tree.prepare scope).Lists := by
  cases tree with
  | task leaf => trivial
  | branch group children =>
      intro parallel
      have kind : group.isSerial = false := (Group.isSerial_setCursor group 0).symm.trans parallel
      have same : (group.prepare scope).failed = group.failed := by
        cases discipline : group.discipline with
        | serial => simp [Group.isSerial, discipline] at kind
        | parallel => simp [Group.prepare, Group.setCursor, Group.failed, discipline]
      exact same ▸ lists kind

theorem Lists.finish (lists : tree.Lists) : tree.finish.Lists := by
  cases tree with
  | task leaf => trivial
  | branch group children => exact lists

/-! ## Visits to a child -/

theorem not_fails_of_unchecked (unchecked : tree.standing.isUnchecked) : ¬ tree.Fails := by
  rintro ⟨failure, -⟩
  have propagation : tree.standing.propagation = .unchecked := by
    simpa [Standing.isUnchecked] using unchecked
  simp [Standing.propagatedResult, propagation] at failure

theorem not_fails_of_fine (fine : tree.standing.result.IsFine) : ¬ tree.Fails :=
  fun fails => (Standing.propagatedResult_eq_failure_iff.mp fails.1).2 fine

theorem OnCourse.waits (course : tree.OnCourse) (fails : tree.Fails) :
    tree.checking = .mustCheck := by
  rcases course with ⟨waits, -⟩ | success | unstable
  · exact waits
  · exact absurd fails (not_fails_of_fine (.inl success))
  · exact absurd fails (not_fails_of_fine (.inr (.inr unstable)))

/-- What a visit leaves of a child that tells no failure. -/
structure Passed (next : Tree) : Prop where
  noted : ∀ failed, next.Noted failed
  waits : next.Fails → next.standing.propagatedChecking = .mustCheck

theorem OnCourse.passed (course : tree.OnCourse) : tree.Passed where
  noted _ := {
    listed := fun finished fails => by
      have waits : tree.standing.checking = .mustCheck := course.waits fails
      simp [Standing.isFinished, waits] at finished
    course := fun _ _ => course }
  waits fails := by
    have checked : tree.standing.isUnchecked = false := by
      by_contra unchecked
      exact not_fails_of_unchecked (by simpa using unchecked) fails
    have waits : tree.standing.checking = .mustCheck := course.waits fails
    simp [Standing.propagatedChecking, checked, waits]

theorem passed_of_unchecked (unchecked : tree.standing.isUnchecked) : tree.Passed where
  noted _ := {
    listed := fun _ fails => absurd fails (not_fails_of_unchecked unchecked)
    course := fun _ checked => by cases unchecked.symm.trans checked }
  waits fails := absurd fails (not_fails_of_unchecked unchecked)

/-- An invocation that has ended without a failure was successful, or its build was taken off its
queue. -/
theorem passed_of_ended {leaf : Task} {result : BuildResult} (known : result ≠ .unknown)
    (fine : result.isFailure = false) : (Tree.task (leaf.ended result)).Passed := by
  have fair : ¬ (Tree.task (leaf.ended result)).Fails := by
    rintro ⟨failure, queued⟩
    have bad := (Standing.propagatedResult_eq_failure_iff.mp failure).2
    have queued : result ≠ .dequeued := queued
    have bad : ¬ result.IsFine := bad
    cases result with
    | failure => cases fine
    | aborted => cases fine
    | dequeued => exact queued rfl
    | unknown => exact known rfl
    | _ => exact bad (by decide)
  constructor
  · exact fun _ => ⟨fun _ fails => absurd fails fair, fun unfinished => by cases unfinished⟩
  · exact fun fails => absurd fails fair

end Tree

theorem Task.Follows.passed {now : Instant} {leaf after : Task} {world there : World}
    (follows : leaf.Follows now world (.ok ()) after there) (course : (Tree.task leaf).OnCourse) :
    (Tree.task after).Passed := by
  generalize answered : (Except.ok () : Except Halt Unit) = answer at follows
  cases follows with
  | missing => cases answered
  | waits finds begins =>
      have attempted := finds.attempted.trans begins.attempted
      apply Tree.OnCourse.passed
      unfold Tree.OnCourse Tree.checking Tree.result Tree.standing at course ⊢
      dsimp only at course ⊢
      rwa [attempted.checking, attempted.result]
  | @ends _ begun _ _ result _ _ _ _ _ known =>
      apply Tree.passed_of_ended known
      unfold Task.ending at answered
      split at answered
      · cases answered
      · next fine => exact Bool.not_eq_true _ ▸ fine
  | strays => cases answered
  | lost => cases answered

/-- What a visit leaves that tells no failure. -/
theorem Tree.Sweeps.passed {now : Instant} {tree next : Tree} {world after : World}
    (sweeps : Tree.Sweeps now tree world (.ok ()) next after)
    (inhabited : ∀ group, tree ≠ .branch group [])
    (course : tree.standing.isUnchecked = false → tree.OnCourse) : next.Passed := by
  cases kind : tree.standing.isUnchecked with
  | true => exact Tree.passed_of_unchecked ((isUnchecked_of_layout sweeps.blank).trans kind)
  | false =>
      have course := course kind
      cases tree with
      | task leaf =>
          obtain ⟨leaf', rfl, follows⟩ := sweeps.ofTask
          exact follows.passed course
      | branch group children =>
          have inhabited : children ≠ [] := fun empty => inhabited group (empty ▸ rfl)
          exact ((sweeps.course inhabited course).1 rfl).passed

namespace Branch

variable {now : Instant} {index : Nat} {rest indices : List Nat} {branch next last : Branch}
  {world after : World} {status status' final : Checking} {child new visited : Tree}
  {failure : JobFailure} {again : Bool}

/-- The children of a parallel group at some point of a pass. -/
structure PassNoted (indices : List Nat) (branch : Branch) (status : Checking) : Prop where
  parallel : branch.1.isSerial = false
  numbered : (Tree.branch branch.1 branch.2).Every Tree.Numbered
  noted : ∀ child ∈ branch.2, child.Noted branch.1.failed
  /-- A child that the pass has come by is listed if it fails, or the group waits. -/
  listed : ∀ place child, branch.2[place]? = some child → place ∉ indices → child.Fails →
    status = .mustCheck ∨ branch.1.failed.get? child.standing.id = some child.sequence

/-- Children at different places have different ids. -/
theorem id_ne {other : Tree} {place : Nat} (distinct : (branch.2.map fun child => child.standing.id).Nodup)
    (different : place ≠ index) (here : branch.2[index]? = some child)
    (there : branch.2[place]? = some other) : other.standing.id ≠ child.standing.id := by
  intro same
  apply different
  have inside : place < (branch.2.map fun child => child.standing.id).length := by
    rw [List.length_map]
    exact (List.getElem?_eq_some_iff.mp there).1
  apply (List.getElem?_inj inside distinct).mp
  rw [List.getElem?_map, List.getElem?_map, here, there]
  exact congrArg some same

/-- The child at a place is replaced, and the group notes nothing about the others. -/
structure Replaces (branch : Branch) (index : Nat) (child new : Tree) (next : Branch) : Prop where
  children : next.2 = branch.2.set index new
  isSerial : next.1.isSerial = branch.1.isSerial
  layout : next.blank = branch.blank
  failed : ∀ id ≠ child.standing.id, next.1.failed.get? id = branch.1.failed.get? id

theorem PassNoted.replaces (kept : PassNoted (index :: rest) branch status)
    (here : branch.2[index]? = some child) (replaces : Replaces branch index child new next)
    (noted : new.Noted next.1.failed)
    (listed : new.Fails → status' = .mustCheck ∨
      next.1.failed.get? new.standing.id = some new.sequence)
    (onward : status = .mustCheck → status' = .mustCheck) : PassNoted rest next status' := by
  -- Ids are distinct, so what is noted of the other children is not touched.
  have apart : ∀ {place other}, place ≠ index → branch.2[place]? = some other →
      next.1.failed.get? other.standing.id = branch.1.failed.get? other.standing.id :=
    fun different there =>
      replaces.failed _ (id_ne kept.numbered.self.1 different here there)
  have placed : ∀ {place other}, next.2[place]? = some other →
      place = index ∧ other = new ∨ place ≠ index ∧ branch.2[place]? = some other := by
    intro place other there
    rw [replaces.children] at there
    exact getElem?_put there
  constructor
  case parallel => exact replaces.isSerial.trans kept.parallel
  case numbered => exact Tree.numbered_of_layout (blank_tree replaces.layout) kept.numbered
  case noted =>
    intro other member
    obtain ⟨place, there⟩ := List.mem_iff_getElem?.mp member
    rcases placed there with ⟨-, rfl⟩ | ⟨different, there⟩
    · exact noted
    · exact (kept.noted other (List.mem_of_getElem? there)).apart (apart different there)
  case listed =>
    intro place other there passed fails
    rcases placed there with ⟨-, rfl⟩ | ⟨different, there⟩
    · exact listed fails
    · have passed : place ∉ index :: rest := by simp [different, passed]
      rw [apart different there]
      exact (kept.listed place other there passed fails).imp_left onward

theorem PassNoted.skips (kept : PassNoted (index :: rest) branch status)
    (finished : ∀ child, branch.2[index]? = some child → child.standing.isFinished) :
    PassNoted rest branch status where
  parallel := kept.parallel
  numbered := kept.numbered
  noted := kept.noted
  listed := by
    intro place child there passed fails
    by_cases same : place = index
    · subst same
      exact .inr ((kept.noted child (List.mem_of_getElem? there)).listed (finished child there) fails)
    · exact kept.listed place child there (by simp [same, passed]) fails

theorem failed_setFailed {group : Group} (parallel : group.isSerial = false)
    (failed : Table Nat String) : (group.setFailed failed).failed = failed := by
  cases discipline : group.discipline with
  | serial => simp [Group.isSerial, discipline] at parallel
  | parallel => simp [Group.setFailed, Group.failed, discipline]

theorem PassNoted.passes (kept : PassNoted (index :: rest) branch status)
    (here : branch.2[index]? = some child) (layout : visited.blank = child.blank)
    (passed : visited.Passed) :
    PassNoted rest ((branch.put index visited).cleared visited)
      (min status visited.standing.propagatedChecking) := by
  have failed : ((branch.put index visited).cleared visited).1.failed =
      branch.1.failed.erase child.standing.id := by
    rw [← Tree.id_of_layout layout]
    exact failed_setFailed kept.parallel _
  have replaces : Replaces branch index child visited ((branch.put index visited).cleared visited) := {
    children := rfl
    isSerial := Group.isSerial_setFailed _ _
    layout := (blank_cleared _ visited).trans (blank_put here layout)
    failed := fun id different => failed ▸ (Table.get?_erase _ _ id).trans (if_neg different) }
  refine kept.replaces here replaces (passed.noted _) (fun fails => .inl ?_) fun waits => ?_
  · rw [passed.waits fails]
    cases status <;> rfl
  · rw [waits]
    cases visited.standing.propagatedChecking <;> rfl

/-- A parallel group notes a child that has failed, and finishes or prepares it. -/
theorem Answers.replaces (answers : Answers branch index child failure (.ok again) next)
    (parallel : branch.1.isSerial = false) :
    ∃ new, next.2 = branch.2.set index new ∧ next.1.isSerial = false ∧
      next.1.failed = branch.1.failed.insert child.standing.id child.sequence ∧
      (new = child.finish ∨ ∃ scope, new = child.prepare scope) := by
  have kind : (branch.noted child).1.isSerial = false :=
    (Group.isSerial_setFailed _ _).trans parallel
  have failed : (branch.noted child).1.failed =
      branch.1.failed.insert child.standing.id child.sequence := failed_setFailed parallel _
  cases answers with
  | aborts =>
      unfold aborting
      rw [if_neg (by exact Bool.eq_false_iff.mp kind)]
      exact ⟨_, rfl, kind, failed, .inl rfl⟩
  | abortsUnchecked => exact ⟨_, rfl, kind, failed, .inl rfl⟩
  | stays _ _ serial => cases parallel.symm.trans serial
  | retries =>
      unfold retried
      rw [if_neg (by exact Bool.eq_false_iff.mp kind)]
      exact ⟨_, rfl, kind, failed, .inr ⟨_, rfl⟩⟩
  | ends =>
      rw [leaving_parallel (by exact kind)]
      exact ⟨_, rfl, kind, failed, .inl rfl⟩
  | endsUnchecked => exact ⟨_, rfl, kind, failed, .inl rfl⟩

theorem PassNoted.fails (kept : PassNoted (index :: rest) branch status)
    (here : branch.2[index]? = some child) (layout : visited.blank = child.blank)
    (answers : Answers (branch.put index visited) index visited failure (.ok again) next) :
    PassNoted rest next (if again then .mustCheck else status) := by
  obtain ⟨new, children, parallel, failed, made⟩ := answers.replaces kept.parallel
  have blank : new.blank = visited.blank := by
    rcases made with rfl | ⟨scope, rfl⟩
    · exact visited.blank_finish
    · exact visited.blank_prepare scope
  have listed : next.1.failed.get? new.standing.id = some new.sequence := by
    rw [failed, Table.get?_insert, if_pos (Tree.id_of_layout blank), Tree.sequence_of_layout blank]
  have replaces : Replaces branch index child new next := {
    children := children.trans (List.set_set ..)
    isSerial := parallel.trans kept.parallel.symm
    layout := (answers.blank (getElem?_put_self here visited)).trans (blank_put here layout)
    failed := fun id different => by
      rw [failed, Table.get?_insert, Tree.id_of_layout layout, if_neg different]
      rfl }
  -- A child that was finished or prepared anew is listed, and one that waits again holds the group
  -- up.
  refine kept.replaces here replaces ⟨fun _ _ => listed, fun unfinished checked => ?_⟩
    (fun _ => .inr listed) fun waits => ?_
  · rcases made with rfl | ⟨scope, rfl⟩
    · rw [Tree.standing_finish] at unfinished
      cases unfinished
    · rw [Tree.standing_prepare] at checked
      have checked : visited.standing.isUnchecked = false := checked
      left
      unfold Tree.checking Tree.result
      rw [Tree.standing_prepare]
      simp [Standing.prepare, checked]
  · rw [waits]
    split <;> rfl

/-- A pass over the children of a parallel group lists those that fail. -/
theorem Pass.noted
    (pass : Pass (Tree.Sweeps now) indices branch world status (.ok final) last after)
    (kept : PassNoted indices branch status) : PassNoted [] last final := by
  refine pass.arrives (p := fun indices branch _ status => PassNoted indices branch status)
    (fun kept => kept.skips) ?_ (fun kept here _ visit => kept.fails here visit.blank) kept
  intro index rest branch world status child next there kept here unfinished visit
  have inside := List.mem_of_getElem? here
  exact kept.passes here visit.blank
    (visit.passed (kept.numbered.self.2 _ inside) ((kept.noted _ inside).course unfinished))

/-- What visits keep of all children is kept by a pass, if it outlasts new attempts. -/
theorem Pass.all {course : Course Tree} {p : Tree → Prop} (lasts : Tree.Outlasts p)
    (visits : ∀ {child world answer next there}, course child world answer next there →
      Answered answer → child.standing.isFinished = false → p child → p next)
    (pass : Pass course indices branch world status (.ok final) last after)
    (each : Each p branch) : Each p last := by
  refine pass.carries (p := fun middle _ _ => Each p middle) ?_ ?_ each
  · intro index middle world status child next there each here unfinished visit
    have fits := visits visit .ok unfinished (each child (List.mem_of_getElem? here))
    exact each.set index fits
  · intro index middle world status child next there failure again answered each here unfinished
      visit answers
    have fits := visits visit (.failed failure) unfinished (each child (List.mem_of_getElem? here))
    exact answers.all (each.set index fits) fits (lasts.finishes fits)
      fun _ scope => lasts.prepares scope

/-! ## Sweeps -/

theorem failed_begun (group : Group) (now : Instant) : (group.begun now).failed = group.failed := by
  obtain ⟨_, _, same⟩ := group.begun_eq now
  rw [same]
  rfl

/-- The end of a sweep leaves what a parallel group has noted. -/
theorem Closes.failed {answer : Except Halt Unit} (closes : Closes now branch status answer last)
    (parallel : branch.1.isSerial = false) : last.1.failed = branch.1.failed := by
  cases closes with
  | pending => rfl
  | overdue => rfl
  | fails => rfl
  | moves _ _ serial => cases parallel.symm.trans serial
  | ends =>
      have same : branch.summed.moved = branch.summed := moved_parallel parallel
      rw [same]
      rfl

/-- A group fails only once it is settled, and because of what its children come to. -/
theorem Closes.failing (closes : Closes now branch status (failedBy failure) last) :
    isPending status branch = false ∧ (branch.aggregate branch.span).isFailure := by
  generalize told : (failedBy failure : Except Halt Unit) = answer at closes
  cases closes with
  | fails settled failed => exact ⟨settled, failed⟩
  | _ => cases told

/-- A parallel group that fails has listed all children that fail, and there is some child that looks
like a failure. -/
theorem Sweeps.noted {answer : Except Halt Unit} (parallel : branch.1.isSerial = false)
    (numbered : (Tree.branch branch.1 branch.2).Every Tree.Numbered)
    (noted : ∀ child ∈ branch.2, child.Noted branch.1.failed) (answered : Answered answer)
    (sweeps : Sweeps now (Tree.Sweeps now) branch world answer last after) :
    (∀ child ∈ last.2, child.Noted last.1.failed) ∧
      ∀ failure, answer = failedBy failure →
        (∀ child ∈ last.2, child.Fails →
          last.1.failed.get? child.standing.id = some child.sequence) ∧
        ∃ child ∈ last.2, child.standing.propagatedResult = .failure := by
  have start : PassNoted (List.range (branch.begun now).span) (branch.begun now) .finished := {
    parallel := (Group.isSerial_begun _ _).trans parallel
    numbered := Tree.numbered_of_layout (blank_tree (blank_begun branch now)) numbered
    noted := fun child member => (failed_begun branch.1 now).symm ▸ noted child member
    listed := by
      intro place child here passed
      have whole : (branch.begun now).span = (branch.begun now).2.length :=
        span_parallel ((Group.isSerial_begun _ _).trans parallel)
      have inside := (List.getElem?_eq_some_iff.mp here).1
      exact absurd (List.mem_range.mpr (whole ▸ inside)) passed }
  cases sweeps with
  | halts pass => cases answered; exact absurd rfl (pass.hard _)
  | @closes passed _ _ status _ pass closes =>
      have kept := pass.noted start
      have parallel : (passed.closed status).1.isSerial = false := kept.parallel
      have below : last.2 = passed.2 := closes.children
      have failed : last.1.failed = passed.1.failed := closes.failed parallel
      rw [below, failed]
      refine ⟨kept.noted, ?_⟩
      rintro failure rfl
      obtain ⟨settled, failed⟩ := closes.failing
      constructor
      · intro child member fails
        obtain ⟨place, here⟩ := List.mem_iff_getElem?.mp member
        -- The group is done, so it waits for no child.
        exact (kept.listed place child here List.not_mem_nil fails).resolve_left
          (settled_iff.mp settled).1
      · obtain ⟨child, member, looks⟩ := exists_of_isFailure (settled_unknown settled) failed
        exact ⟨child, List.mem_of_mem_take member, looks⟩

end Branch

namespace Tree

/-- In every sweep parallel groups note their children. -/
theorem Sweeps.lists {now : Instant} {tree next : Tree} {world after : World}
    {answer : Except Halt Unit} (sweeps : Sweeps now tree world answer next after)
    (answered : Answered answer) (numbered : tree.Every Numbered) (lists : tree.Every Lists) :
    next.Every Lists := by
  refine sweeps.rule (p := fun tree _ answer next _ =>
    Answered answer → tree.Every Numbered → tree.Every Lists → next.Every Lists) ?_ ?_
    answered numbered lists
  · exact fun _ _ _ _ => every_task.mpr trivial
  · intro group children world answer group' children' after sweeps answered numbered lists
    have below : ∀ child ∈ children', child.Every Numbered ∧ child.Every Lists := by
      -- New attempts and endings of children keep both the numbers and the notes.
      have lasts : Outlasts fun child => child.Every Numbered ∧ child.Every Lists := {
        prepares := fun scope each => ⟨numbered_of_layout (blank_prepare scope _) each.1,
          each.2.prepared (each.2.self.prepare scope)⟩
        finishes := fun each => ⟨numbered_of_layout (blank_finish _) each.1,
          each.2.finished each.2.self.finish⟩ }
      have each : ∀ child ∈ children, child.Every Numbered ∧ child.Every Lists := fun child member =>
        ⟨(every_branch.mp numbered).2 child member, (every_branch.mp lists).2 child member⟩
      cases sweeps with
      | halts pass => cases answered; exact absurd rfl (pass.hard _)
      | closes pass closes =>
          have kept := pass.all lasts (fun visit answered _ each =>
            ⟨numbered_of_layout visit.1.blank each.1, visit.2 answered each.1 each.2⟩) each
          have same : children' = _ := closes.children
          exact same ▸ kept
    refine every_branch.mpr ⟨fun parallel => ?_, fun child member => (below child member).2⟩
    have layout := (Prod.mk.inj (sweeps.blank fun visit => visit.1.blank)).1
    have kind : group.isSerial = false := by
      rw [← Group.isSerial_blank group, ← layout, Group.isSerial_blank]
      exact parallel
    exact ((sweeps.mono fun visit => visit.1).noted kind numbered (lists.self kind) answered).1

/-- What a parallel group tells is the failure that the sweep has left it with. -/
theorem check_failures (sweep : Sweep) (report : Bool) {group : Group}
    (parallel : group.isSerial = false) (children : List Tree) (host : Host) {told : JobFailure}
    (tells : (check sweep report (.branch group children) host).1 = failedBy told) :
    ∃ last : Branch,
      (check sweep report (.branch group children) host).2.1 = .branch last.1 last.2 ∧
        told = last.failures := by
  unfold check at tells ⊢
  rw [height] at tells ⊢
  unfold checkWithin at tells ⊢
  dsimp only at tells ⊢
  rw [if_neg (by simp [parallel]), NodeAct.visit_eq] at tells ⊢
  have names := Branch.leads_checkParallel_names sweep (checkWithin sweep (heightOf children))
    (group, children) host
  exact ⟨_, rfl, names told tells⟩

/-- Whom a parallel group lists when it fails: children of its own, among them all that fail. If
none of its builds was taken off its queue, there is one. -/
theorem check_lists (sweep : Sweep) (report : Bool) {group : Group}
    (parallel : group.isSerial = false) {children : List Tree}
    (numbered : (Tree.branch group children).Every Numbered)
    (lists : (Tree.branch group children).Lists) {host : Host} (quiet : host.Quiet)
    {told : JobFailure}
    (tells : (check sweep report (.branch group children) host).1 = failedBy told) :
    ∃ (last : Branch) (listed : List String),
      (check sweep report (.branch group children) host).2.1 = .branch last.1 last.2 ∧
        told = .parallel last.sequence listed last.1.standing.propagation last.1.aborted ∧
        (∀ child ∈ last.2, child.Fails → child.sequence ∈ listed) ∧
        ((∀ child ∈ last.2, child.standing.result ≠ .dequeued) → listed ≠ []) := by
  obtain ⟨last, left, rfl⟩ := check_failures sweep report parallel children host tells
  obtain ⟨-, sweeps⟩ := check_sweeps sweep report (.branch group children) quiet
  rw [tells, left] at sweeps
  obtain ⟨group', children', same, swept⟩ := sweeps.ofBranch
  cases same
  obtain ⟨listed, child, member, looks⟩ :=
    (swept.noted parallel numbered (lists parallel) (.failed _)).2 _ rfl
  have named : ∀ child ∈ last.2, child.Fails → child.sequence ∈ last.1.failed.values :=
    fun child member fails => Table.mem_values_of_get? _ (listed child member fails)
  refine ⟨last, _, left, rfl, named, fun waited => ?_⟩
  exact List.ne_nil_of_mem (named child member ⟨looks, waited child member⟩)

theorem noted_of_prepared {tree : Tree} {standing : Standing} {scope : Bool}
    (prepared : tree.standing = standing.prepare scope) (failed : Table Nat String) :
    tree.Noted failed where
  listed finished := by
    rw [prepared] at finished
    unfold Standing.prepare Standing.isFinished at finished
    dsimp only at finished
    split at finished <;> cases finished
  course _ checked := by
    left
    unfold checking result
    rw [prepared] at checked ⊢
    have checked : standing.isUnchecked = false := checked
    simp [Standing.prepare, checked]

end Tree

/-! ## Flows that were declared -/

namespace Draft

variable {config : RunConfig} {root : GroupOptions} {serial : Bool} {draft : Draft} {log : Log}
  {tree : Tree}

/-- The children of a group have ids of their own, since all nodes have. -/
theorem Grown.numbered (grown : Grown root log tree) (ordered : tree.nodeIds.Pairwise (· < ·)) :
    tree.Every Tree.Numbered := by
  intro node inside
  cases node with
  | task => trivial
  | branch group children =>
      obtain ⟨around, lies⟩ := Tree.mem_nodes_iff_liesIn.mp inside
      constructor
      · have ids : (children.map fun child => child.standing.id).Sublist
            (Tree.branch group children).nodeIds := by
          rw [Tree.nodeIds_branch]
          exact (Tree.childIds_sublist children).cons _
        exact ((ordered.imp Nat.ne_of_lt).sublist ((Tree.nodes_sublist inside).map _)).sublist ids
      · rintro child member below rfl
        exact ((grown.full lies).2.2 _ member).self.1 rfl

theorem Session.numbered (session : Session config root serial log draft) {host : Host}
    {after : Draft × Host} (finished : finish.run (draft, host) = (.ok tree, after)) :
    tree.Every Tree.Numbered :=
  (session.finished_grown finished).numbered (session.finished_ordered finished)

end Draft

/-! ## Runs -/

namespace Flow

variable {reads : Instant → Prop} {world : World} {state : Tree × World}

theorem Passes.numbered {flow : Flow} (passes : flow.Passes reads world state)
    (numbered : flow.root.Every Tree.Numbered) : state.1.Every Tree.Numbered :=
  Tree.every_numbered_blank.mp (passes.blank ▸ numbered)

/-- In all states of a run parallel groups have noted their children. -/
theorem Passes.lists {flow : Flow} (passes : flow.Passes reads world state)
    (numbered : flow.root.Every Tree.Numbered) : state.1.Every Tree.Lists := by
  apply passes.keeps (p := fun state => state.1.Every Tree.Lists)
  · intro first there prepared node member
    cases node with
    | task => trivial
    | branch group children =>
        intro _ child below
        have inside := Tree.mem_nodes_of_child member below (Tree.self_mem_nodes child)
        exact Tree.noted_of_prepared (prepared.2.2 child inside).standing _
  · rintro state next passes lists ⟨-, -, answered, sweep⟩
    exact sweep.lists answered (passes.numbered numbered) lists

/-- Take any run of a flow that was declared, without a kill. Whenever a parallel group fails in it,
it lists each of its children that looks like a failure, unless the build of that child was taken off
its queue. If this happened to none of its children, the list is not empty. -/
theorem run_lists_failed {config : RunConfig} {root : GroupOptions} {serial : Bool}
    {draft : Draft} {log : Draft.Log} {tree : Tree} {drafting : Host} {after : Draft × Host}
    (session : Draft.Session config root serial log draft)
    (finished : Draft.finish.run (draft, drafting) = (.ok tree, after))
    (env : RunConfig.Environment) {flow : Flow} {host host' : Host}
    {answer : Except Halt BuildResult} (quiet : host.Quiet) (alive : config.killAll = false)
    (ran : run.run (ofDraft draft tree env, host) = (answer, flow, host')) :
    (ofDraft draft tree env).Halted host'.reads host.world answer flow.root host'.world ∧
      ∀ state, (ofDraft draft tree env).Passes host'.reads host.world state →
        ∀ group children, .branch group children ∈ state.1.nodes → group.isSerial = false →
          ∀ (sweep : Sweep) (report : Bool) (there : Host) (told : JobFailure), there.Quiet →
            (Tree.check sweep report (.branch group children) there).1 = failedBy told →
            ∃ (last : Branch) (listed : List String),
              (Tree.check sweep report (.branch group children) there).2.1 =
                .branch last.1 last.2 ∧
              told = .parallel last.sequence listed last.1.standing.propagation last.1.aborted ∧
              (∀ child ∈ last.2, child.standing.propagatedResult = .failure →
                child.standing.result ≠ .dequeued → child.sequence ∈ listed) ∧
              ((∀ child ∈ last.2, child.standing.result ≠ .dequeued) → listed ≠ []) := by
  have fresh : (ofDraft draft tree env).root.IsFresh := session.fresh finished
  have numbered : (ofDraft draft tree env).root.Every Tree.Numbered := session.numbered finished
  have alive : (ofDraft draft tree env).config.killAll = false :=
    (congrArg RunConfig.killAll session.settings.1).trans alive
  refine ⟨((leads_run quiet fresh alive).ran ran).halts fresh, ?_⟩
  intro state passes group children member parallel sweep report there told quiet tells
  obtain ⟨last, listed, left, same, named, inhabited⟩ := Tree.check_lists sweep report parallel
    ((passes.numbered numbered).within member) (passes.lists numbered _ member) quiet tells
  exact ⟨last, listed, left, same, fun child inside looks waited => named child inside ⟨looks, waited⟩,
    inhabited⟩

/-- Two invocations side by side, in the root. -/
def abreastDraft : Draft :=
  (Draft.performAll [.invoke .root "build" [] false, .invoke .root "lint" [] false] []
    (Draft.initial {} {} false
      ((Pattern.ofString? ({} : RunConfig).secretPattern).getD ⟨"", .nothing⟩), .ofPlans [])).2.1

def abreastTree : Tree :=
  Draft.withMessages abreastDraft.messages abreastDraft.innermost.toTree

theorem exists_abreast : ∃ log after, Draft.Session {} {} false log abreastDraft ∧
    Draft.finish.run (abreastDraft, .ofPlans []) = (.ok abreastTree, after) := by
  have closed : abreastDraft.outer.length = 0 := by decide +kernel
  exact (Draft.session_bare false).exists_finished
    [.invoke .root "build" [] false, .invoke .root "lint" [] false] (.ofPlans []) closed

def abreastHost (result : BuildResult) : Host :=
  .ofPlans [{ name := "build" }, { name := "lint", finalResult := result }]

set_option maxRecDepth 100000 in
theorem run_lists_failed_abreast :
    ∃ (answer : Except Halt BuildResult) (flow : Flow) (host' : Host),
      run.run (ofDraft abreastDraft abreastTree {}, abreastHost .failure) = (answer, flow, host') ∧
      told? answer = some (.parallel "(build, lint)" ["lint"] .normal false) ∧
      (ofDraft abreastDraft abreastTree {}).Halted host'.reads (abreastHost .failure).world answer
        flow.root host'.world ∧
      ∀ state, (ofDraft abreastDraft abreastTree {}).Passes host'.reads
          (abreastHost .failure).world state →
        ∀ group children, .branch group children ∈ state.1.nodes → group.isSerial = false →
          ∀ (sweep : Sweep) (report : Bool) (there : Host) (told : JobFailure), there.Quiet →
            (Tree.check sweep report (.branch group children) there).1 = failedBy told →
            ∃ (last : Branch) (listed : List String),
              (Tree.check sweep report (.branch group children) there).2.1 =
                .branch last.1 last.2 ∧
              told = .parallel last.sequence listed last.1.standing.propagation last.1.aborted ∧
              (∀ child ∈ last.2, child.standing.propagatedResult = .failure →
                child.standing.result ≠ .dequeued → child.sequence ∈ listed) ∧
              ((∀ child ∈ last.2, child.standing.result ≠ .dequeued) → listed ≠ []) := by
  have told : told? (run.run (ofDraft abreastDraft abreastTree {}, abreastHost .failure)).1 =
      some (.parallel "(build, lint)" ["lint"] .normal false) := by decide +kernel
  obtain ⟨log, after, session, finished⟩ := exists_abreast
  generalize ran : run.run (ofDraft abreastDraft abreastTree {}, abreastHost .failure) = out at told
  obtain ⟨answer, flow, host'⟩ := out
  exact ⟨answer, flow, host', rfl, told,
    run_lists_failed session finished {} (Host.quiet_start _ _ _) rfl ran⟩

set_option maxRecDepth 100000 in
/-- An invocation whose build is taken off its queue lets its group fail, but the group lists
nothing. -/
theorem run_lists_nobody : ∃ log after, Draft.Session {} {} false log abreastDraft ∧
    Draft.finish.run (abreastDraft, .ofPlans []) = (.ok abreastTree, after) ∧
    (abreastHost .dequeued).Quiet ∧
    ∃ (answer : Except Halt BuildResult) (flow : Flow) (host' : Host),
      run.run (ofDraft abreastDraft abreastTree {}, abreastHost .dequeued) = (answer, flow, host') ∧
      told? answer = some (.parallel "(build, lint)" [] .normal false) ∧
      ∃ child ∈ flow.root.children, child.sequence = "lint" ∧
        child.standing.propagatedResult = .failure := by
  have told : told? (run.run (ofDraft abreastDraft abreastTree {}, abreastHost .dequeued)).1 =
      some (.parallel "(build, lint)" [] .normal false) := by decide +kernel
  have failed : ∃ child ∈ (run.run (ofDraft abreastDraft abreastTree {},
      abreastHost .dequeued)).2.1.root.children, child.sequence = "lint" ∧
        child.standing.propagatedResult = .failure := by decide +kernel
  obtain ⟨log, after, session, finished⟩ := exists_abreast
  generalize run.run (ofDraft abreastDraft abreastTree {}, abreastHost .dequeued) = out at *
  obtain ⟨answer, flow, host'⟩ := out
  exact ⟨log, after, session, finished, Host.quiet_start _ _ _, answer, flow, host', rfl, told, failed⟩

end Flow

end BuildFlow
