import BuildFlow.Proofs.Tree.Life
import BuildFlow.Proofs.Tree.Trial
/-!
Sweeps where no checked invocation uses up its tries. What goes on below unchecked
nodes is shut in: it builds no jobs but those below it, and its failures are answered
in its own place. A checked invocation that fails is tried again by its own group, so
no checked group fails, whatever the unchecked work does.
-/
namespace BuildFlow

/-! ## What a visit does not touch -/

/-- A step builds no other job. -/
theorem Task.Follows.outside {now : Instant} {task next : Task} {world after : World}
    {answer : Except Halt Unit} (follows : Follows now task world answer next after)
    (answered : Answered answer) {name : String} (other : name ≠ task.name) :
    after.runner.buildsOf name = world.runner.buildsOf name := by
  have begun : ∀ {found begun : Task} {there after : World}, Found task world found there →
      Begun now found there begun after →
      after.runner.buildsOf name = world.runner.buildsOf name := by
    intro found begun there after finds begins
    rw [← finds.buildsOf name]
    cases begins with
    | going => rfl
    | joins => rfl
    | starts _ _ invoked =>
        apply Runner.buildsOf_invoked invoked
        rwa [finds.attempted.name]
  cases follows with
  | missing => exact Runner.buildsOf_lookup _ _ _
  | waits finds begins => exact begun finds begins
  | ends finds begins => exact begun finds begins
  | strays _ _ _ strays => cases answered; cases strays
  | lost => cases answered

namespace Tree

/-- A sweep builds no jobs but those of the tree. -/
theorem Sweeps.outside {now : Instant} {tree next : Tree} {world after : World}
    {answer : Except Halt Unit} (sweeps : Sweeps now tree world answer next after)
    (answered : Answered answer) :
    ∀ name ∉ tree.names, after.runner.buildsOf name = world.runner.buildsOf name := by
  refine sweeps.rule (p := fun tree world answer _ after => Answered answer →
    ∀ name ∉ tree.names, after.runner.buildsOf name = world.runner.buildsOf name) ?_ ?_ answered
  · intro leaf world answer leaf' after follows answered name other
    exact follows.outside answered fun same => other (List.mem_singleton.mpr same)
  · intro group children world answer group' children' after sweeps answered name outside
    cases sweeps with
    | halts pass => cases answered; exact absurd rfl (pass.hard _)
    | @closes passed _ _ _ _ pass closes =>
        have apart : ∀ {branch : Branch} {child : Tree},
            branch.blank = Branch.blank (group, children) → child ∈ branch.2 → name ∉ child.names := by
          intro branch child layout member named
          have names := names_of_layout (Branch.blank_tree layout)
          exact outside (names ▸ mem_names_branch.mpr ⟨child, member, named⟩)
        -- The children keep their names all along, so that no visit is to the job in question.
        refine (pass.carries (p := fun branch there _ =>
          branch.blank = Branch.blank (group, children) ∧
            there.runner.buildsOf name = world.runner.buildsOf name) ?_ ?_
          ⟨Branch.blank_begun (group, children) now, rfl⟩).2
        · rintro index branch there status child next after ⟨layout, same⟩ here - visit
          refine ⟨?_, (visit.2 .ok name (apart layout (List.mem_of_getElem? here))).trans same⟩
          exact (Branch.blank_cleared _ _).trans ((Branch.blank_put here visit.1.blank).trans layout)
        · rintro index branch there status child next after failure again answered ⟨layout, same⟩
            here - visit answers
          refine ⟨?_, (visit.2 (.failed failure) name
            (apart layout (List.mem_of_getElem? here))).trans same⟩
          exact (answers.blank (Branch.getElem?_put_self here next)).trans ((Branch.blank_put here visit.1.blank).trans layout)

/-! ## Calm trees -/

/-- What a checked group has come to where no checked group fails. -/
structure CalmGroup (group : Group) (children : List Tree) : Prop where
  inhabited : children ≠ []
  hopeful : group.standing.result = .unknown ∨ group.standing.result = .success
  settled : group.standing.Settled
  past : group.isSerial → ∀ child ∈ children.take group.cursor,
    child.standing.propagatedResult = .success

/-- Every checked invocation of the tree goes on until it succeeds. -/
inductive Calm (runner : Runner) : Tree → Prop
  | unchecked {tree : Tree} (unchecked : tree.standing.isUnchecked) : Calm runner tree
  | task {leaf : Task} (tries : leaf.Tries runner) : Calm runner (.task leaf)
  | branch {group : Group} {children : List Tree} (here : CalmGroup group children)
      (below : ∀ child ∈ children, Calm runner child) : Calm runner (.branch group children)

theorem Calm.settled {runner : Runner} {tree : Tree} (calm : tree.Calm runner) :
    tree.standing.Settled := by
  cases calm with
  | unchecked unchecked => exact fun _ => Standing.propagatedResult_of_unchecked unchecked
  | task tries => exact tries.settled
  | branch here => exact here.settled

theorem Calm.hopeful {runner : Runner} {tree : Tree} (calm : tree.Calm runner)
    (checked : tree.standing.isUnchecked = false) :
    tree.standing.result = .unknown ∨ tree.standing.result = .success := by
  cases calm with
  | unchecked unchecked => cases checked.symm.trans unchecked
  | task tries => exact tries.hopeful
  | branch here => exact here.hopeful

theorem Calm.grows {before after : Runner} {tree : Tree} (calm : tree.Calm before)
    (grows : before.Grows after)
    (same : ∀ name ∈ tree.names, after.buildsOf name = before.buildsOf name) :
    tree.Calm after := by
  induction tree using childrenInduction with
  | leaf leaf =>
      cases calm with
      | unchecked unchecked => exact .unchecked unchecked
      | task tries => exact .task (tries.grows grows (same leaf.name (List.mem_singleton_self _)))
  | branch group children ih =>
      cases calm with
      | unchecked unchecked => exact .unchecked unchecked
      | branch here below =>
          refine .branch here fun child member => ih child member (below child member) ?_
          exact fun name named => same name (mem_names_branch.mpr ⟨child, member, named⟩)

/-- A new attempt of a node that looks like a success. The children of a group are
left as they are. -/
theorem Calm.prepare {runner : Runner} {tree : Tree} (calm : tree.Calm runner)
    (passed : tree.standing.propagatedResult = .success) (scope : Bool) :
    (tree.prepare scope).Calm runner := by
  cases calm with
  | unchecked unchecked =>
      refine .unchecked ?_
      rw [standing_prepare]
      exact unchecked
  | task tries =>
      rcases Standing.propagatedResult_eq_success.mp passed with good | unchecked
      · exact .task (tries.prepare good.known scope)
      · exact .unchecked unchecked
  | branch here below =>
      refine .branch ⟨here.inhabited, .inl rfl, Standing.settled_prepare _ _, ?_⟩ below
      intro _
      rw [Group.cursor_prepare]
      exact fun child member => absurd member List.not_mem_nil

/-- Every checked invocation of a calm tree has not failed. -/
theorem Calm.tries {runner : Runner} {tree : Tree} (calm : tree.Calm runner) :
    ∀ leaf ∈ tree.checkedTasks, leaf.Tries runner := by
  induction tree using childrenInduction with
  | leaf other =>
      intro leaf member
      unfold checkedTasks at member
      split at member
      · cases member
      · next checked =>
          rw [List.mem_singleton.mp member]
          cases calm with
          | unchecked unchecked => exact absurd unchecked checked
          | task tries => exact tries
  | branch group children ih =>
      intro leaf member
      unfold checkedTasks at member
      split at member
      · cases member
      · next checked =>
          obtain ⟨child, inside, member⟩ := mem_checkedOf.mp member
          cases calm with
          | unchecked unchecked => exact absurd unchecked checked
          | branch _ below => exact ih child inside (below child inside) leaf member

/-- How a visit ends where no checked invocation uses up its tries. -/
inductive Visited (runner : Runner) (next : Tree) : Except Halt Unit → Prop
  | ok (calm : next.Calm runner) : Visited runner next (.ok ())
  | unchecked {failure : JobFailure} (unchecked : next.standing.isUnchecked) :
      Visited runner next (failedBy failure)
  | missed {failure : JobFailure} {leaf : Task} (same : next = .task leaf)
      (missed : leaf.Missed runner) (unaborted : failure.isAborted = false) :
      Visited runner next (failedBy failure)

end Tree

/-- The visits after which no checked invocation has used up its tries. -/
def calmCourse : Course Tree := fun child world answer next after =>
  Answered answer → child.standing.isFinished = false → child.names.Nodup →
    child.Sound world.runner → child.Calm world.runner → next.Visited after.runner answer

namespace Branch

/-- A pass over a checked group that has come to the children at the rest of the
places. Those that it has visited look like successes unless it waits. -/
structure PassCalm (start : Branch) (rest : List Nat) (branch : Branch) (world : World)
    (status : Checking) : Prop where
  layout : branch.blank = start.blank
  standing : branch.1.standing = start.1.standing
  sound : ∀ child ∈ branch.2, child.Sound world.runner
  calm : ∀ child ∈ branch.2, child.Calm world.runner
  within : branch.1.isSerial → ∀ index ∈ rest, index ≤ branch.1.cursor
  past : branch.1.isSerial → ∀ child ∈ branch.2.take branch.1.cursor,
    child.standing.propagatedResult = .success
  cursor : status ≠ .mustCheck → branch.1.cursor = start.1.cursor
  passed : status ≠ .mustCheck → ∀ place ∉ rest, place < start.span → ∀ child,
    branch.2[place]? = some child → child.standing.propagatedResult = .success

section

variable {index : Nat} {rest : List Nat} {start branch next : Branch} {world there : World}
  {status : Checking} {child visited : Tree} {answer : Except Halt Unit} {failure : JobFailure}
  {again : Bool} {now : Instant}

theorem PassCalm.skips (kept : PassCalm start (index :: rest) branch world status)
    (finished : ∀ child, branch.2[index]? = some child → child.standing.isFinished) :
    PassCalm start rest branch world status :=
  { kept with
    within := fun serial place member => kept.within serial place (List.mem_cons_of_mem _ member)
    passed := by
      intro waits place beyond inside child here
      by_cases same : place = index
      · subst same
        apply (kept.calm child (List.mem_of_getElem? here)).settled
        exact Standing.unwaited (finished child here)
      · exact kept.passed waits place (List.not_mem_cons_of_ne_of_not_mem same beyond) inside
          child here }

/-- A visit leaves the other children calm. -/
theorem PassCalm.beside (kept : PassCalm start (index :: rest) branch world status)
    (distinct : (Tree.branch start.1 start.2).names.Nodup) (here : branch.2[index]? = some child)
    (sweeps : Tree.Sweeps now child world answer visited there) (answered : Answered answer)
    {place : Nat} {other : Tree} (different : place ≠ index) (at' : branch.2[place]? = some other) :
    other.Calm there.runner := by
  have names := Tree.names_of_layout (blank_tree kept.layout)
  refine (kept.calm other (List.mem_of_getElem? at')).grows sweeps.grows.runner ?_
  exact fun name named => sweeps.outside answered name
    (Tree.apart_of_nodup (names ▸ distinct) different at' here name named)

theorem PassCalm.put (kept : PassCalm start (index :: rest) branch world status)
    (distinct : (Tree.branch start.1 start.2).names.Nodup) (here : branch.2[index]? = some child)
    (sweeps : Tree.Sweeps now child world answer visited there) (answered : Answered answer)
    {new : Tree} (calm : new.Calm there.runner) :
    ∀ other ∈ (branch.put index new).2, other.Calm there.runner := by
  intro other member
  obtain ⟨place, at'⟩ := List.mem_iff_getElem?.mp member
  rcases getElem?_put at' with ⟨-, rfl⟩ | ⟨different, at'⟩
  · exact calm
  · exact kept.beside distinct here sweeps answered different at'

theorem PassCalm.sound_put (kept : PassCalm start (index :: rest) branch world status)
    (grows : world.Grows there) (sound : visited.Sound there.runner) :
    ∀ other ∈ (branch.put index visited).2, other.Sound there.runner := by
  intro other member
  rcases List.mem_or_eq_of_mem_set member with old | same
  · exact (kept.sound other old).grows grows.runner
  · exact same ▸ sound

/-- The children before the cursor once one child was replaced. -/
theorem PassCalm.past_put (kept : PassCalm start (index :: rest) branch world status)
    (here : branch.2[index]? = some child) (passes : child.standing.propagatedResult = .success →
      visited.standing.propagatedResult = .success) (serial : branch.1.isSerial) :
    ∀ other ∈ (branch.put index visited).2.take branch.1.cursor,
      other.standing.propagatedResult = .success := by
  intro other member
  obtain ⟨place, before, at'⟩ := Tree.mem_take_iff.mp member
  have earlier : ∀ {old : Tree}, branch.2[place]? = some old →
      old.standing.propagatedResult = .success := fun at' =>
    kept.past serial _ (Tree.mem_take_iff.mpr ⟨place, before, at'⟩)
  rcases getElem?_put at' with ⟨rfl, rfl⟩ | ⟨-, at'⟩
  · exact passes (earlier here)
  · exact earlier at'

theorem PassCalm.passes (kept : PassCalm start (index :: rest) branch world status)
    (distinct : (Tree.branch start.1 start.2).names.Nodup) (here : branch.2[index]? = some child)
    (sweeps : Tree.Sweeps now child world (.ok ()) visited there)
    (keeps : Tree.KeepsSound child (.ok ()) visited there) (calm : visited.Calm there.runner) :
    PassCalm start rest ((branch.put index visited).cleared visited) there
      (min status visited.standing.propagatedChecking) where
  layout := (blank_cleared _ _).trans ((blank_put here sweeps.blank).trans kept.layout)
  standing := (Group.standing_setFailed _ _).trans kept.standing
  sound := kept.sound_put sweeps.grows keeps.sound
  calm := kept.put distinct here sweeps .ok calm
  within serial place member := by
    have serial : branch.1.isSerial := (Group.isSerial_setFailed _ _).symm.trans serial
    exact (Group.cursor_setFailed _ _).symm ▸ kept.within serial place (List.mem_cons_of_mem _ member)
  past serial := by
    have serial : branch.1.isSerial := (Group.isSerial_setFailed _ _).symm.trans serial
    exact (Group.cursor_setFailed _ _).symm ▸ kept.past_put here keeps.passed serial
  cursor waits := by
    obtain ⟨waits, -⟩ := not_or.mp (mt Checking.min_eq_mustCheck.mpr waits)
    exact (Group.cursor_setFailed _ _).trans (kept.cursor waits)
  passed waits place beyond inside other at' := by
    obtain ⟨waits, settles⟩ := not_or.mp (mt Checking.min_eq_mustCheck.mpr waits)
    have at' : (branch.put index visited).2[place]? = some other := at'
    rcases getElem?_put at' with ⟨-, rfl⟩ | ⟨different, at'⟩
    · exact calm.settled settles
    · exact kept.passed waits place (List.not_mem_cons_of_ne_of_not_mem different beyond) inside
        other at'

/-- The failure of an unchecked child is answered in its own place. -/
theorem PassCalm.fails (kept : PassCalm start (index :: rest) branch world status)
    (distinct : (Tree.branch start.1 start.2).names.Nodup) (here : branch.2[index]? = some child)
    (sweeps : Tree.Sweeps now child world (failedBy failure) visited there)
    (sound : visited.Sound there.runner) (known : visited.standing.result ≠ .unknown)
    (unchecked : visited.standing.isUnchecked)
    (answers : Answers (branch.put index visited) index visited failure (.ok again) next) :
    PassCalm start rest next there (if again then .mustCheck else status) := by
  have placed := getElem?_put_self here visited
  obtain ⟨new, propagation, children⟩ := answers.abnormal (Standing.abnormal_of_unchecked unchecked) placed
  -- Apart from the child in its place, the answer leaves the group as it is.
  have group := answers.group unchecked
  have unchecked' : new.standing.isUnchecked := by
    unfold Standing.isUnchecked
    rw [propagation]
    exact unchecked
  have success := Standing.propagatedResult_of_unchecked unchecked'
  have children : next.2 = (branch.put index new).2 := children.trans (List.set_set _)
  have serial : next.1.isSerial = branch.1.isSerial := by
    rw [group]
    exact Group.isSerial_setFailed _ _
  have cursor : next.1.cursor = branch.1.cursor := by
    rw [group]
    exact Group.cursor_setFailed _ _
  have waiting : (if again then .mustCheck else status) ≠ .mustCheck → status ≠ .mustCheck := by
    intro waits
    cases again with
    | true => exact absurd rfl waits
    | false => exact waits
  constructor
  case layout =>
    exact (answers.blank placed).trans ((blank_put here sweeps.blank).trans kept.layout)
  case standing =>
    rw [group]
    exact (Group.standing_setFailed _ _).trans kept.standing
  case sound =>
    exact answers.touched (kept.sound_put sweeps.grows sound) (List.mem_of_getElem? placed) known
  case calm =>
    rw [children]
    exact kept.put distinct here sweeps (.failed failure) (.unchecked unchecked')
  case within =>
    rw [serial, cursor]
    exact fun serial place member => kept.within serial place (List.mem_cons_of_mem _ member)
  case past =>
    rw [serial, cursor, children]
    exact kept.past_put here fun _ => success
  case cursor => exact fun waits => cursor.trans (kept.cursor (waiting waits))
  case passed =>
    intro waits place beyond inside other at'
    rw [children] at at'
    rcases getElem?_put at' with ⟨-, rfl⟩ | ⟨different, at'⟩
    · exact success
    · exact kept.passed (waiting waits) place (List.not_mem_cons_of_ne_of_not_mem different beyond)
        inside other at'

/-- A checked child of a serial group that fails is the one at work. -/
theorem PassCalm.atWork (kept : PassCalm start (index :: rest) branch world status)
    (here : branch.2[index]? = some child) (checked : child.standing.isUnchecked = false)
    (keeps : Tree.KeepsSound child (failedBy failure) visited there) (serial : branch.1.isSerial) :
    index = branch.1.cursor := by
  apply Nat.le_antisymm (kept.within serial index List.mem_cons_self)
  apply Nat.le_of_not_lt
  intro before
  have member : child ∈ branch.2.take branch.1.cursor :=
    Tree.mem_take_iff.mpr ⟨index, before, here⟩
  rcases Standing.propagatedResult_eq_success.mp (kept.past serial child member) with good | unchecked
  · cases (keeps.kept good.known).1
  · cases checked.symm.trans unchecked

/-- The children once the group tries again: those before the one that failed look
like successes. -/
theorem PassCalm.retried (kept : PassCalm start (index :: rest) branch world status)
    (distinct : (Tree.branch start.1 start.2).names.Nodup) (here : branch.2[index]? = some child)
    {leaf : Task} (sweeps : Tree.Sweeps now child world (failedBy failure) (.task leaf) there)
    (missed : leaf.Missed there.runner) (sameScope : leaf.standing.newScope = false)
    (atWork : branch.1.isSerial → index = branch.1.cursor) :
    ∀ other ∈ ((branch.put index (.task leaf)).retried index (.task leaf)).2,
      other.Calm there.runner := by
  intro other member
  have beside : ∀ {place : Nat} {other : Tree}, place ≠ index → branch.2[place]? = some other →
      other.Calm there.runner :=
    fun different at' => kept.beside distinct here sweeps (.failed failure) different at'
  rcases mem_retried here atWork member with rfl | ⟨place, different, at'⟩ |
    ⟨serial, old, among, place, different, at', rfl⟩
  · rw [show (Tree.task leaf).standing.newScope = false from sameScope]
    exact .task missed.prepare
  · exact beside different at'
  · exact (beside different at').prepare (kept.past serial old among) _

/-- A checked invocation that has missed a try is tried again by its group. -/
theorem PassCalm.misses (kept : PassCalm start (index :: rest) branch world status)
    (sorted : (index :: rest).Pairwise (· < ·))
    (distinct : (Tree.branch start.1 start.2).names.Nodup) (here : branch.2[index]? = some child)
    {leaf : Task} (sweeps : Tree.Sweeps now child world (failedBy failure) (.task leaf) there)
    (keeps : Tree.KeepsSound child (failedBy failure) (.task leaf) there)
    (missed : leaf.Missed there.runner) (unaborted : failure.isAborted = false)
    (answers : Answers (branch.put index (.task leaf)) index (.task leaf) failure (.ok again) next) :
    PassCalm start rest next there (if again then .mustCheck else status) := by
  have placed := getElem?_put_self here (.task leaf)
  have normal : (Tree.task leaf).standing.propagation = .normal := missed.normal
  have remaining : 0 < (Tree.task leaf).standing.remainingTries := missed.remaining
  have mayTry : (Tree.task leaf).standing.mayTry := Standing.mayTry_eq_true.mpr (.inl remaining)
  have local' : (Tree.task leaf).standing.newScope = false :=
    Standing.newScope_eq_false.mpr remaining
  have checked : child.standing.isUnchecked = false := by
    simp [Standing.isUnchecked, ← keeps.propagation, normal]
  have known : (Tree.task leaf).standing.result ≠ .unknown := by
    rw [show (Tree.task leaf).standing.result = _ from missed.failure]
    exact BuildResult.noConfusion
  have sound := answers.touched (kept.sound_put sweeps.grows keeps.sound)
    (List.mem_of_getElem? placed) known
  have layout := (answers.blank placed).trans ((blank_put here sweeps.blank).trans kept.layout)
  -- The leaf is normal and has tries left, so all that the group can do is to try it again.
  cases answers with
  | aborts aborted => cases unaborted.symm.trans aborted
  | abortsUnchecked aborted => cases unaborted.symm.trans aborted
  | stays _ _ _ abnormal => exact absurd normal abnormal
  | ends _ spent => cases spent.symm.trans mayTry
  | endsUnchecked _ spent => cases spent.symm.trans mayTry
  | retries =>
      have isSerial : ((branch.put index (.task leaf)).noted (.task leaf)).1.isSerial =
          branch.1.isSerial := Group.isSerial_setFailed _ _
      have atWork := kept.atWork here checked keeps
      rw [local']
      constructor
      case layout => exact layout
      case standing =>
        exact (standing_retried _ _ _).trans ((Group.standing_setFailed _ _).trans kept.standing)
      case sound => exact sound
      case calm =>
        rw [retried_noted]
        exact kept.retried distinct here sweeps missed local' atWork
      case within =>
        intro serial place member
        rw [isSerial_retried, isSerial] at serial
        have atWork := atWork serial
        have within := kept.within serial place (List.mem_cons_of_mem _ member)
        have later := (List.pairwise_cons.mp sorted).1 place member
        omega
      case past =>
        intro serial
        rw [isSerial_retried] at serial
        rw [cursor_retried serial]
        exact fun child member => absurd member List.not_mem_nil
      case cursor => exact fun waits => absurd rfl waits
      case passed => exact fun waits => absurd rfl waits

end

theorem Pass.calm {now : Instant} {start : Branch} {indices : List Nat} {branch last : Branch}
    {world after : World} {status final : Checking}
    (pass : Pass (fun child world answer next after =>
        Tree.Sweeps now child world answer next after ∧ calmCourse child world answer next after)
      indices branch world status (.ok final) last after)
    (distinct : (Tree.branch start.1 start.2).names.Nodup) (sorted : indices.Pairwise (· < ·))
    (kept : PassCalm start indices branch world status) :
    PassCalm start [] last after final := by
  have nodup : ∀ {branch : Branch}, branch.blank = start.blank → ∀ child ∈ branch.2,
      child.names.Nodup := by
    intro branch layout child member
    have names := Tree.names_of_layout (blank_tree layout)
    exact Tree.nodup_of_child (names ▸ distinct) member
  refine (pass.arrives (p := fun indices branch world status => indices.Pairwise (· < ·) ∧
    PassCalm start indices branch world status) ?_ ?_ ?_ ⟨sorted, kept⟩).2
  · rintro index rest branch world status ⟨sorted, kept⟩ finished
    exact ⟨sorted.of_cons, kept.skips finished⟩
  · rintro index rest branch world status child next there ⟨sorted, kept⟩ here unfinished visit
    have member := List.mem_of_getElem? here
    have keeps := visit.1.sound .ok unfinished (kept.sound _ member)
    have visited := visit.2 .ok unfinished (nodup kept.layout _ member)
      (kept.sound _ member) (kept.calm _ member)
    cases visited with
    | ok calm => exact ⟨sorted.of_cons, kept.passes distinct here visit.1 keeps calm⟩
  · rintro index rest branch world status child next there failure again answered
      ⟨sorted, kept⟩ here unfinished visit answers
    have member := List.mem_of_getElem? here
    have keeps := visit.1.sound (.failed failure) unfinished (kept.sound _ member)
    have known : next.standing.result ≠ .unknown := fun unknown => by
      have bad := keeps.failed failure rfl
      rw [unknown] at bad
      cases bad
    refine ⟨sorted.of_cons, ?_⟩
    have visited := visit.2 (.failed failure) unfinished (nodup kept.layout _ member)
      (kept.sound _ member) (kept.calm _ member)
    generalize asked : failedBy failure = answer at visited
    cases visited with
    | ok => cases asked
    | unchecked unchecked =>
        exact kept.fails distinct here visit.1 keeps.sound known unchecked answers
    | missed same missed unaborted =>
        cases asked
        subst same
        exact kept.misses sorted distinct here visit.1 keeps missed unaborted answers

/-- A checked group goes on, or comes to a success. -/
theorem Closes.calm {now : Instant} {branch last : Branch} {world : World} {status : Checking}
    {answer : Except Halt Unit} (closes : Closes now branch status answer last)
    (answered : Answered answer) (inhabited : branch.2 ≠ [])
    (hopeful : branch.1.standing.result = .unknown ∨ branch.1.standing.result = .success)
    (checking : branch.1.standing.checking = status)
    (calm : ∀ child ∈ branch.2, child.Calm world.runner)
    (past : branch.1.isSerial → ∀ child ∈ branch.2.take branch.1.cursor,
      child.standing.propagatedResult = .success)
    (passed : status ≠ .mustCheck → ∀ child ∈ branch.2.take branch.span,
      child.standing.propagatedResult = .success) :
    (Tree.branch last.1 last.2).Calm world.runner ∧ answer = .ok () := by
  have success : isPending status branch = false → branch.aggregate branch.span = .success := by
    intro settled
    obtain ⟨waits, unknown⟩ := settled_iff.mp settled
    apply aggregate_success unknown _ (passed waits)
    intro none
    rcases List.take_eq_nil_iff.mp none with zero | empty
    · exact absurd (span_pos inhabited) (by omega)
    · exact inhabited empty
  -- A serial group goes on to the next child after those in reach.
  have moved : isPending status branch = false → ∀ group : Group,
      group.isSerial = branch.1.isSerial → group.cursor = branch.1.cursor + 1 → group.isSerial →
      ∀ child ∈ branch.2.take group.cursor, child.standing.propagatedResult = .success := by
    intro settled group same cursor serial child member
    apply passed (settled_iff.mp settled).1 child
    rw [span_serial (same ▸ serial), ← List.take_take, List.take_length]
    rwa [cursor] at member
  cases closes with
  | pending pending =>
      refine ⟨.branch ⟨inhabited, hopeful, ?_, past⟩ calm, rfl⟩
      apply Standing.settled_of_hopeful hopeful
      rw [checking]
      exact isPending_iff.mp pending
  | overdue => cases answered
  | fails settled failure =>
      rw [success settled] at failure
      cases failure
  | moves settled fine serial more =>
      refine ⟨.branch ⟨inhabited, .inl rfl, ?_, ?_⟩ calm, rfl⟩
      · exact Standing.settled_of_hopeful (.inl rfl) (.inl rfl)
      · apply moved settled
        · exact Group.isSerial_setCursor _ _
        · exact Group.cursor_setCursor serial _
  | ends settled fine last =>
      have result : branch.summed.moved.1.standing.result = .success :=
        (congrArg Standing.result branch.summed.standing_moved).trans (success settled)
      refine ⟨.branch ⟨inhabited, .inr result, ?_, fun serial => ?_⟩ calm, rfl⟩
      · exact fun _ => Standing.propagatedResult_of_good (.inl result)
      · have same : branch.summed.moved.1.isSerial = branch.1.isSerial := Group.isSerial_setCursor _ _
        exact moved settled _ same (Group.cursor_setCursor (same ▸ serial) _) serial

theorem PassCalm.start {group : Group} {children : List Tree} {world : World}
    (sound : (Tree.branch group children).Sound world.runner) (here : Tree.CalmGroup group children)
    (below : ∀ child ∈ children, child.Calm world.runner) (now : Instant) :
    PassCalm (begun (group, children) now) (List.range (begun (group, children) now).span)
      (begun (group, children) now) world .finished := by
  have cursor : (begun (group, children) now).1.cursor = group.cursor := Group.cursor_begun group now
  have serial : (begun (group, children) now).1.isSerial = group.isSerial :=
    Group.isSerial_begun group now
  refine ⟨rfl, rfl, (Tree.sound_branch.mp sound).2, below, ?_, ?_, fun _ => rfl, ?_⟩
  · exact fun serial index member => le_cursor_of_mem_range serial member
  · rw [serial, cursor]
    exact here.past
  · exact fun _ place beyond inside => absurd (List.mem_range.mpr inside) beyond

theorem Sweeps.calm {now : Instant} {group group' : Group} {children children' : List Tree}
    {world after : World} {answer : Except Halt Unit}
    (sweeps : Sweeps now (fun child world answer next after =>
        Tree.Sweeps now child world answer next after ∧ calmCourse child world answer next after)
      (group, children) world answer (group', children') after) (answered : Answered answer)
    (distinct : (Tree.branch group children).names.Nodup)
    (sound : (Tree.branch group children).Sound world.runner) (here : Tree.CalmGroup group children)
    (below : ∀ child ∈ children, child.Calm world.runner) :
    (Tree.branch group' children').Calm after.runner ∧ answer = .ok () := by
  cases sweeps with
  | halts pass => cases answered; exact absurd rfl (pass.hard _)
  | @closes passed _ _ status _ pass closes =>
      obtain ⟨time, same⟩ := Group.standing_begun group now
      -- The pass starts calm, keeps calm at each visit, and is left calm when it closes.
      have start : PassCalm (begun (group, children) now)
          (List.range (begun (group, children) now).span) (begun (group, children) now) world
          .finished := .start sound here below now
      have names : (Tree.branch (begun (group, children) now).1 (begun (group, children) now).2).names =
          (Tree.branch group children).names := by
        rw [Tree.names_branch, Tree.names_branch]
        rfl
      have kept := pass.calm (names ▸ distinct) List.pairwise_lt_range start
      have lengths : passed.2.length = children.length := length_of_layout kept.layout
      have inhabited : passed.2 ≠ [] := by
        rw [← List.length_pos_iff, lengths, List.length_pos_iff]
        exact here.inhabited
      have result : (passed.closed status).1.standing.result = group.standing.result := by
        rw [result_closed, kept.standing]
        change (group.begun now).standing.result = _
        rw [same]
      apply closes.calm answered inhabited (result ▸ here.hopeful) rfl kept.calm kept.past
      intro waits child member
      have span : (passed.closed status).span = (begun (group, children) now).span :=
        span_eq pass.isSerial (kept.cursor waits) lengths
      obtain ⟨place, inside, at'⟩ := Tree.mem_take_iff.mp member
      exact kept.passed waits place List.not_mem_nil (span ▸ inside) child at'

end Branch

/-- Sweeps keep checked work calm, and no checked group fails. -/
theorem Tree.Sweeps.calm {now : Instant} (set : now.isSet) {tree next : Tree} {world after : World}
    {answer : Except Halt Unit} (sweeps : Tree.Sweeps now tree world answer next after)
    (answered : Answered answer) (unfinished : tree.standing.isFinished = false)
    (distinct : tree.names.Nodup) (sound : tree.Sound world.runner)
    (calm : tree.Calm world.runner) : next.Visited after.runner answer := by
  -- Unchecked work may fail as it likes; it stays unchecked.
  have below : ∀ {next : Tree} {runner : Runner} {answer : Except Halt Unit}, Answered answer →
      next.standing.isUnchecked → next.Visited runner answer := by
    intro next runner answer answered unchecked
    cases answered with
    | ok => exact .ok (.unchecked unchecked)
    | failed => exact .unchecked unchecked
  refine sweeps.rule (p := calmCourse) ?_ ?_ answered unfinished distinct sound calm
  · intro leaf world answer leaf' after follows answered unfinished distinct sound calm
    cases unchecked : leaf.isUnchecked with
    | true =>
        apply below answered
        change leaf'.standing.isUnchecked
        unfold Standing.isUnchecked
        rw [follows.propagation]
        exact unchecked
    | false =>
        cases calm with
        | unchecked impossible => cases unchecked.symm.trans impossible
        | task tries =>
            have unknown := (sound_task.mp sound).unknown unfinished
            cases follows.tries set answered unchecked tries unknown with
            | ok tries => exact .ok (.task tries)
            | failed unaborted missed => exact .missed rfl missed unaborted
  · intro group children world answer group' children' after sweeps answered unfinished distinct
      sound calm
    cases calm with
    | unchecked unchecked =>
        have keeps := (sweeps.mono fun visit => ⟨visit.1, visit.1.sound⟩).sound answered sound
        apply below answered
        unfold Standing.isUnchecked at unchecked ⊢
        rwa [keeps.propagation]
    | branch here children =>
        obtain ⟨calm, rfl⟩ := sweeps.calm answered distinct sound here children
        exact .ok calm

end BuildFlow
