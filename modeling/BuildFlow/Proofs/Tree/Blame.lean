import BuildFlow.Proofs.Tree.Life
import BuildFlow.Proofs.Tree.Sound
/-!
Who is to blame for a failure, where every node reports normally. A group that
failed has below it an invocation whose last build did not end well. If that build
failed, the job got as many builds as a retry scope allows, and as many as all of
them do unless the invocation waits for another attempt that was announced.
-/
namespace BuildFlow

/-- The results of a build that a parent takes for a failure. -/
def BuildResult.isBad : BuildResult → Bool
  | .failure | .aborted | .dequeued => true
  | _ => false

theorem BuildResult.isBad_of_isFailure {result : BuildResult} (failure : result.isFailure) :
    result.isBad := by
  cases result <;> first | rfl | cases failure

theorem BuildResult.known_of_isBad {result : BuildResult} (bad : result.isBad) :
    result ≠ .unknown := by
  rintro rfl
  cases bad

theorem Checking.min_plain {left right : Checking} (plain : left = .mustCheck ∨ left = .finished)
    (plain' : right = .mustCheck ∨ right = .finished) :
    min left right = .mustCheck ∨ min left right = .finished ∧ left = .finished ∧ right = .finished := by
  rcases plain with rfl | rfl <;> rcases plain' with rfl | rfl <;> decide

namespace Standing

/-- The node reports normally, and it is done exactly if it has a result. -/
structure Regular (standing : Standing) : Prop where
  normal : standing.propagation = .normal
  settled : standing.checking = .mustCheck ∧ standing.result = .unknown ∨
    standing.checking = .finished ∧ standing.result ≠ .unknown

variable {standing : Standing}

theorem Regular.checked (regular : standing.Regular) : standing.isUnchecked = false := by
  simp [isUnchecked, regular.normal]

theorem Regular.waits (regular : standing.Regular) (unfinished : standing.isFinished = false) :
    standing.checking = .mustCheck ∧ standing.result = .unknown :=
  regular.settled.resolve_right fun done => by simp [isFinished, done.1] at unfinished

theorem Regular.finished (regular : standing.Regular) (known : standing.result ≠ .unknown) :
    standing.checking = .finished :=
  (regular.settled.resolve_left fun waits => known waits.2).1

theorem Regular.known (regular : standing.Regular) (finished : standing.isFinished) :
    standing.result ≠ .unknown := by
  rcases regular.settled with ⟨waits, -⟩ | ⟨-, known⟩
  · simp [isFinished, waits] at finished
  · exact known

theorem Regular.plain (regular : standing.Regular) :
    standing.checking = .mustCheck ∨ standing.checking = .finished :=
  regular.settled.imp And.left And.left

theorem Regular.prepare (regular : standing.Regular) (scope : Bool) :
    (standing.prepare scope).Regular where
  normal := regular.normal
  settled := by
    left
    simp [Standing.prepare, regular.checked]

theorem propagatedResult_eq_failure (normal : standing.propagation = .normal) :
    standing.propagatedResult = .failure ↔ standing.result.isBad ∨ standing.result = .unknown := by
  cases known : standing.result <;> simp [propagatedResult, normal, known, BuildResult.isBad]

end Standing

/-! ## Invocations -/

namespace Task

/-- The job has got so many builds. -/
def Paid (before runner : Runner) (task : Task) (count : Nat) : Prop :=
  (before.buildsOf task.name).length + count ≤ (runner.buildsOf task.name).length

/-- The last build of the invocation has ended with the result. -/
def Reported (runner : Runner) (task : Task) (result : BuildResult) : Prop :=
  ∃ ref, task.build = some ref ∧ ref.job = task.name ∧ runner.report? ref = some (result, .idle)

/-- The last build did not end well, and another failure would have been tried
again in the retry scope. -/
structure Blamed (before runner : Runner) (task : Task) (result : BuildResult) : Prop where
  reported : task.Reported runner result
  bad : result.isBad
  scope : result = .failure → task.Paid before runner task.standing.maxTries
  total : result = .failure → task.standing.result ≠ .unknown →
    task.Paid before runner task.standing.totalMaxTries

/-- What an invocation has spent, and what it knows of its last build. -/
structure Accounted (before runner : Runner) (task : Task) : Prop where
  sound : task.Sound runner
  present : ∃ job, runner.job? task.name = some job
  counted : task.standing.tried ≤ task.standing.totalTried
  announced : task.Paid before runner (task.standing.totalTried - 1)
  begun : task.standing.result ≠ .unknown ∨ task.standing.isInvoked →
    task.Paid before runner task.standing.totalTried
  reported : task.standing.result ≠ .unknown → task.Reported runner task.standing.result

variable {before runner : Runner} {task : Task}

theorem Paid.grows {after : Runner} {count : Nat} (paid : task.Paid before runner count)
    (grows : runner.Grows after) : task.Paid before after count :=
  Nat.le_trans paid (grows.length task.name)

theorem Paid.mono {count fewer : Nat} (paid : task.Paid before runner count)
    (le : fewer ≤ count) : task.Paid before runner fewer :=
  Nat.le_trans (Nat.add_le_add_left le _) paid

theorem Reported.grows {after : Runner} {result : BuildResult}
    (reported : task.Reported runner result) (grows : runner.Grows after) :
    task.Reported after result := by
  obtain ⟨ref, followed, named, ended⟩ := reported
  exact ⟨ref, followed, named, grows.report? ended⟩

theorem Blamed.grows {after : Runner} {result : BuildResult}
    (blamed : task.Blamed before runner result) (grows : runner.Grows after) :
    task.Blamed before after result where
  reported := blamed.reported.grows grows
  bad := blamed.bad
  scope failure := (blamed.scope failure).grows grows
  total failure known := (blamed.total failure known).grows grows

theorem Blamed.prepare {result : BuildResult} (blamed : task.Blamed before runner result)
    (scope : Bool) : (task.prepare scope).Blamed before runner result where
  reported := blamed.reported
  bad := blamed.bad
  scope := blamed.scope
  total _ known := absurd rfl known

theorem Accounted.grows {after : Runner} (accounted : task.Accounted before runner)
    (grows : runner.Grows after) : task.Accounted before after where
  sound := accounted.sound.grows grows
  present := by
    obtain ⟨job, found⟩ := accounted.present
    obtain ⟨next, found, -⟩ := grows.job? found
    exact ⟨next, found⟩
  counted := accounted.counted
  announced := accounted.announced.grows grows
  begun began := (accounted.begun began).grows grows
  reported known := (accounted.reported known).grows grows

/-- Another attempt is paid for by the one before it, which has come to its end. -/
theorem Accounted.prepare (accounted : task.Accounted before runner)
    (known : task.standing.result ≠ .unknown) (scope : Bool) :
    (task.prepare scope).Accounted before runner where
  sound := accounted.sound.prepare scope
  present := accounted.present
  counted := by
    have counted := accounted.counted
    change (if scope then 1 else task.standing.tried + 1) ≤ task.standing.totalTried + 1
    split <;> omega
  announced := accounted.begun (.inl known)
  begun began := by
    rcases began with known' | invoked
    · exact absurd rfl known'
    · cases invoked
  reported known' := absurd rfl known'

/-- An invocation that failed for good is to blame. -/
theorem Accounted.blamed (accounted : task.Accounted before runner)
    (bad : task.standing.result.isBad)
    (spent : task.standing.result = .failure → task.standing.mayTry = false) :
    task.Blamed before runner task.standing.result := by
  have known := BuildResult.known_of_isBad bad
  have paid := accounted.begun (.inl known)
  have counted := accounted.counted
  have used : task.standing.result = .failure → task.standing.maxTries ≤ task.standing.tried ∧
      task.standing.totalMaxTries ≤ task.standing.totalTried := by
    intro failure
    have spent := spent failure
    rw [Standing.mayTry_eq_false, Standing.remainingTries, Standing.remainingTotalTries] at spent
    omega
  constructor
  · exact accounted.reported known
  · exact bad
  · exact fun failure => paid.mono (Nat.le_trans (used failure).1 counted)
  · exact fun failure _ => paid.mono (used failure).2

/-- An invocation with no tries left in its retry scope is to blame, also if it is
prepared for another one. -/
theorem Accounted.promised (accounted : task.Accounted before runner)
    (bad : task.standing.result.isBad) (spent : task.standing.newScope) :
    (task.prepare true).Blamed before runner task.standing.result := by
  have known := BuildResult.known_of_isBad bad
  have counted := accounted.counted
  have used : task.standing.maxTries ≤ task.standing.totalTried := by
    rw [Standing.newScope_eq_true, Standing.remainingTries] at spent
    omega
  constructor
  · exact accounted.reported known
  · exact bad
  · exact fun _ => (accounted.begun (.inl known)).mono used
  · exact fun _ known' => absurd rfl known'

theorem Found.accounted {found : Task} {world there : World}
    (finds : Found task world found there) (accounted : task.Accounted before world.runner) :
    found.Accounted before there.runner := by
  have grown := accounted.grows finds.grows.runner
  have sound := finds.sound accounted.sound
  cases finds with
  | known => exact grown
  | listed => exact ⟨sound, grown.present, grown.counted, grown.announced, grown.begun, grown.reported⟩
  | looked => exact ⟨sound, grown.present, grown.counted, grown.announced, grown.begun, grown.reported⟩

/-- An attempt that has begun is paid for, also if it comes to its end at once. -/
theorem Begun.paid {now : Instant} {begun : Task} {world after : World}
    (begins : Begun now task world begun after) (accounted : task.Accounted before world.runner)
    (checked : task.isUnchecked = false) : begun.Paid before after.runner task.standing.totalTried := by
  cases begins with
  | going invoked => exact accounted.begun (.inr invoked)
  | joins _ unchecked => cases checked.symm.trans unchecked
  | @starts _ _ _ _ runner invoked =>
      have announced := accounted.announced
      have more := Runner.length_invoked invoked task.name
      rw [if_pos rfl] at more
      change (before.buildsOf task.name).length + _ ≤ (runner.buildsOf task.name).length
      unfold Paid at announced
      omega

theorem Begun.accounted {now : Instant} {begun : Task} {world after : World}
    (begins : Begun now task world begun after) (accounted : task.Accounted before world.runner)
    (checked : task.isUnchecked = false) (unfinished : task.standing.isFinished = false) :
    begun.Accounted before after.runner ∧ begun.Paid before after.runner begun.standing.totalTried ∧
      ∃ ref, begun.build = some ref := by
  have paid := begins.paid accounted checked
  have grown := accounted.grows begins.grows.runner
  have unknown := accounted.sound.unknown unfinished
  obtain ⟨sound, follows⟩ := begins.sound accounted.sound unfinished
  have followed := follows checked
  obtain ⟨time, resolved, build, oldBuild, rfl⟩ := begins.attempted
  refine ⟨?_, paid, followed⟩
  constructor
  case sound => exact sound
  case present => exact grown.present
  case counted => exact grown.counted
  case announced => exact paid.mono (Nat.sub_le _ 1)
  case begun => exact fun _ => paid
  case reported => exact fun known => absurd unknown known

/-- An invocation whose build has ended, or whose job got none. -/
theorem Accounted.ended {result : BuildResult} (accounted : task.Accounted before runner)
    (sound : (task.ended result).Sound runner)
    (paid : task.Paid before runner task.standing.totalTried)
    (reported : task.Reported runner result) : (task.ended result).Accounted before runner where
  sound := sound
  present := accounted.present
  counted := accounted.counted
  announced := accounted.announced
  begun _ := paid
  reported _ := reported

end Task

/-! ## Trees -/

namespace Tree

/-- Some invocation of the tree is to blame. -/
def Guilty (before runner : Runner) (tree : Tree) : Prop :=
  ∃ leaf ∈ tree.tasks, ∃ result, leaf.Blamed before runner result

end Tree

/-- A group that did not come to a good result has somebody to blame, and where a
serial group has moved on nothing is left to do. -/
structure Branch.Accounted (before runner : Runner) (branch : Branch) : Prop where
  inhabited : branch.2 ≠ []
  guilty : branch.1.standing.result.isBad → ∃ child ∈ branch.2, child.Guilty before runner
  spent : ∀ leaf, .task leaf ∈ branch.2 → leaf.standing.result = .failure →
    leaf.standing.mayTry = false
  passed : branch.1.isSerial → branch.1.standing.result = .unknown →
    ∀ child ∈ branch.2.take branch.1.cursor, child.standing.isFinished

namespace Tree

def Accounted (before runner : Runner) (tree : Tree) : Prop :=
  tree.standing.Regular ∧
    match tree with
    | .task leaf => leaf.Accounted before runner
    | .branch group children => Branch.Accounted before runner (group, children)

/-- A visit leaves every failure with somebody to blame. -/
structure Accounts (before : Runner) (answer : Except Halt Unit) (next : Tree) (after : World) :
    Prop where
  every : next.Every (Accounted before after.runner)
  fine : answer = .ok () → ∀ leaf, next = .task leaf → leaf.standing.result ≠ .failure
  failed : ∀ failure, answer = failedBy failure → next.standing.result.isBad
  aborted : ∀ failure, answer = failedBy failure → failure.isAborted →
    ∀ leaf, next = .task leaf → leaf.standing.result ≠ .failure

variable {before runner : Runner} {tree : Tree}

theorem finish_of_finished (done : tree.standing.checking = .finished) : tree.finish = tree := by
  have same : { tree.standing with checking := .finished } = tree.standing := by rw [← done]
  unfold finish
  rw [same]
  cases tree <;> rfl

theorem mem_tasks_branch {group : Group} {children : List Tree} {leaf : Task} :
    leaf ∈ (Tree.branch group children).tasks ↔ ∃ child ∈ children, leaf ∈ child.tasks :=
  mem_tasksOf

theorem Guilty.grows {after : Runner} (guilty : tree.Guilty before runner)
    (grows : runner.Grows after) : tree.Guilty before after := by
  obtain ⟨leaf, member, result, blamed⟩ := guilty
  exact ⟨leaf, member, result, blamed.grows grows⟩

theorem Guilty.prepare (guilty : tree.Guilty before runner) (scope : Bool) :
    (tree.prepare scope).Guilty before runner := by
  obtain ⟨leaf, member, result, blamed⟩ := guilty
  cases tree with
  | task other =>
      cases List.mem_singleton.mp member
      exact ⟨_, List.mem_singleton_self _, result, blamed.prepare scope⟩
  | branch group children => exact ⟨leaf, member, result, blamed⟩

theorem Accounted.grows {after : Runner} (accounted : tree.Accounted before runner)
    (grows : runner.Grows after) : tree.Accounted before after := by
  obtain ⟨regular, accounted⟩ := accounted
  refine ⟨regular, ?_⟩
  cases tree with
  | task leaf => exact Task.Accounted.grows accounted grows
  | branch group children =>
      refine ⟨accounted.inhabited, fun bad => ?_, accounted.spent, accounted.passed⟩
      obtain ⟨child, member, guilty⟩ := accounted.guilty bad
      exact ⟨child, member, guilty.grows grows⟩

/-- A node that did not come to a good result is to blame, or somebody below it. -/
theorem Accounted.guilty (accounted : tree.Accounted before runner)
    (bad : tree.standing.result.isBad)
    (spent : ∀ leaf, tree = .task leaf → leaf.standing.result = .failure →
      leaf.standing.mayTry = false) : tree.Guilty before runner := by
  cases tree with
  | task leaf =>
      exact ⟨leaf, List.mem_singleton_self leaf, _, accounted.2.blamed bad (spent leaf rfl)⟩
  | branch group children =>
      obtain ⟨child, member, leaf, inside, blamed⟩ := accounted.2.guilty bad
      exact ⟨leaf, mem_tasks_branch.mpr ⟨child, member, inside⟩, blamed⟩

/-- The same holds of a node that has no tries left in its retry scope, also once
it is prepared for another one. -/
theorem Accounted.promised (accounted : tree.Accounted before runner)
    (bad : tree.standing.result.isBad) (spent : tree.standing.newScope) :
    (tree.prepare true).Guilty before runner := by
  cases tree with
  | task leaf => exact ⟨_, List.mem_singleton_self _, _, accounted.2.promised bad spent⟩
  | branch group children => exact (accounted.guilty bad fun _ => Tree.noConfusion).prepare true

theorem Accounted.prepare (accounted : tree.Accounted before runner)
    (known : tree.standing.result ≠ .unknown) (scope : Bool) :
    (tree.prepare scope).Accounted before runner := by
  obtain ⟨regular, accounted⟩ := accounted
  refine ⟨standing_prepare tree scope ▸ regular.prepare scope, ?_⟩
  cases tree with
  | task leaf => exact Task.Accounted.prepare accounted known scope
  | branch group children =>
      refine ⟨accounted.inhabited, fun bad => (by cases bad), accounted.spent, fun _ _ => ?_⟩
      rw [Group.cursor_prepare]
      exact fun child member => (List.not_mem_nil member).elim

end Tree

namespace Task

/-- In each attempt a build is started, and it is paid for by a try. -/
theorem Accounted.begins {now : Instant} {task found begun : Task} {world there after : World}
    {before : Runner} (accounted : task.Accounted before world.runner)
    (regular : task.standing.Regular) (unfinished : task.standing.isFinished = false)
    (finds : Found task world found there) (begins : Begun now found there begun after) :
    begun.standing.Regular ∧ begun.Accounted before after.runner ∧
      begun.Paid before after.runner begun.standing.totalTried ∧ ∃ ref, begun.build = some ref := by
  have attempted := finds.attempted
  refine ⟨?_, Begun.accounted begins (finds.accounted accounted)
    (attempted.isUnchecked.trans regular.checked) (attempted.isFinished.trans unfinished)⟩
  obtain ⟨_, _, _, _, rfl⟩ := attempted.trans begins.attempted
  exact ⟨regular.normal, regular.settled⟩

/-- A step of an invocation that may begin. -/
theorem Follows.accounts {now : Instant} {task next : Task} {world after : World}
    {answer : Except Halt Unit} {before : Runner} (follows : Follows now task world answer next after)
    (answered : Answered answer) (unfinished : task.standing.isFinished = false)
    (accounted : (Tree.task task).Accounted before world.runner) :
    Tree.Accounts before answer (.task next) after := by
  obtain ⟨regular, accounted⟩ := accounted
  have sound := follows.sound answered accounted.sound unfinished
  obtain ⟨waits, unknown⟩ := regular.waits unfinished
  -- A job that was found stays, so that the step does not find it missing.
  cases follows with
  | missing _ _ missing =>
      obtain ⟨job, found⟩ := accounted.present
      cases missing.symm.trans found
  | waits finds begins =>
      obtain ⟨regular', accounted', -⟩ := accounted.begins regular unfinished finds begins
      refine ⟨Tree.every_task.mpr ⟨regular', accounted'⟩, ?_, nofun, nofun⟩
      rintro - leaf same
      cases same
      rw [(finds.attempted.trans begins.attempted).result, show task.standing.result = _ from unknown]
      exact BuildResult.noConfusion
  | @ends _ ended _ _ result _ finds begins observes idle known =>
      obtain ⟨regular', accounted', paid, ref, followed⟩ :=
        accounted.begins regular unfinished finds begins
      have reported : ended.Reported after.runner result := by
        have observed := observes.report followed
        rw [Progress.eq_idle idle] at observed
        exact ⟨ref, followed, (accounted'.sound.anchored ref followed).1, observed⟩
      have settled : (ended.ended result).standing.Regular := ⟨regular'.normal, .inr ⟨rfl, known⟩⟩
      refine ⟨Tree.every_task.mpr ⟨settled, accounted'.ended sound paid reported⟩, ?_, ?_, ?_⟩
      · rintro fine leaf same failure
        cases same
        replace failure : result = .failure := failure
        rw [failure] at fine
        cases fine
      · intro failure failed
        unfold ending at failed
        split at failed
        · next bad => exact BuildResult.isBad_of_isFailure bad
        · cases failed
      · rintro failure failed aborted leaf same failure'
        cases same
        replace failure' : result = .failure := failure'
        rw [failure'] at failed
        cases failed
        cases aborted
  | strays _ _ _ strays => cases answered; cases strays
  | lost => cases answered

end Task

namespace Branch

/-! ## Groups -/

section

variable {before : Runner} {width index : Nat} {rest : List Nat} {branch next : Branch}
  {world there : World} {status : Checking} {child failed : Tree} {failure : JobFailure}
  {answer : Except Halt Unit} {again : Bool}

/-- Among the children that a pass has come by one is to blame, or all of those in
reach are done. -/
inductive Told (before runner : Runner) (width : Nat) (rest : List Nat) (branch : Branch) : Prop
  | blamed {index : Nat} {child : Tree} (here : branch.2[index]? = some child)
      (visited : index ∉ rest) (bad : child.standing.result.isBad ∨ child.Guilty before runner) :
      Told before runner width rest branch
  | done (span : branch.span = width)
      (finished : ∀ index child, branch.2[index]? = some child → index < width → index ∉ rest →
        child.standing.isFinished) : Told before runner width rest branch

/-- A pass over a group that has come to the children at the rest of the places. A
serial group has only the child at its cursor to visit. -/
structure PassAccounted (before : Runner) (width : Nat) (rest : List Nat) (branch : Branch)
    (world : World) (status : Checking) : Prop where
  unknown : branch.1.standing.result = .unknown
  normal : branch.1.standing.propagation = .normal
  every : ∀ child ∈ branch.2, child.Every (Tree.Accounted before world.runner)
  spent : ∀ leaf, .task leaf ∈ branch.2 → leaf.standing.result = .failure →
    leaf.standing.mayTry = false
  plain : status = .mustCheck ∨ status = .finished
  told : status = .finished → Told before world.runner width rest branch
  within : branch.1.isSerial → ∀ index ∈ rest, index ≤ branch.1.cursor ∧ status = .finished
  passed : branch.1.isSerial → rest = [] ∧ status = .finished ∨
    ∀ child ∈ branch.2.take branch.1.cursor, child.standing.isFinished

/-- A failed child that reports normally is left as it is or tried again. -/
theorem Answers.plain (answers : Answers branch index child failure (.ok again) next)
    (here : branch.2[index]? = some child) (normal : child.standing.propagation = .normal)
    (finished : child.standing.checking = .finished) :
    next.2 = branch.2 ∧ again = false ∧
        (failure.isAborted = false → child.standing.mayTry = false) ∨
      again = !child.standing.newScope ∧ next.2 = (branch.retried index child).2 ∧
        (branch.1.isSerial → next.1.cursor = 0) := by
  have checked : child.standing.isUnchecked = false := by simp [Standing.isUnchecked, normal]
  have kept : (branch.put index child.finish).2 = branch.2 := by
    obtain ⟨inside, same⟩ := List.getElem?_eq_some_iff.mp here
    rw [Tree.finish_of_finished finished, ← same]
    exact List.set_getElem_self inside
  cases answers with
  | aborts aborted =>
      refine .inl ⟨?_, rfl, fun unaborted => absurd unaborted (by simp [aborted])⟩
      unfold aborting
      split <;> exact kept
  | abortsUnchecked _ unchecked => cases checked.symm.trans unchecked
  | stays _ _ _ abnormal => exact absurd normal abnormal
  | retries =>
      refine .inr ⟨rfl, retried_noted branch index child, fun serial => ?_⟩
      exact cursor_retried ((Group.isSerial_setFailed _ _).trans serial) _ _
  | ends _ spent => exact .inl ⟨kept, rfl, fun _ => spent⟩
  | endsUnchecked _ _ unchecked => cases checked.symm.trans unchecked

theorem PassAccounted.skips
    (kept : PassAccounted before width (index :: rest) branch world status)
    (finished : ∀ child, branch.2[index]? = some child → child.standing.isFinished) :
    PassAccounted before width rest branch world status where
  unknown := kept.unknown
  normal := kept.normal
  every := kept.every
  spent := kept.spent
  plain := kept.plain
  told closed := by
    cases kept.told closed with
    | blamed here visited bad => exact .blamed here (List.not_mem_of_not_mem_cons visited) bad
    | done span done =>
        refine .done span fun place child here inside visited => ?_
        by_cases same : place = index
        · exact finished child (same ▸ here)
        · exact done place child here inside (List.not_mem_cons_of_ne_of_not_mem same visited)
  within serial place member := kept.within serial place (List.mem_cons_of_mem _ member)
  passed serial := by
    rcases kept.passed serial with ⟨none, -⟩ | passed
    · cases none
    · exact .inr passed

/-- Where the children before its cursor are done, a serial group has only the one at its
cursor to visit. -/
theorem last_of_passed (sorted : (index :: rest).Pairwise (· < ·))
    (here : branch.2[index]? = some child) (unfinished : child.standing.isFinished = false)
    (within : ∀ place ∈ index :: rest, place ≤ branch.1.cursor)
    (passed : ∀ child ∈ branch.2.take branch.1.cursor, child.standing.isFinished) :
    index = branch.1.cursor ∧ rest = [] := by
  have cursor : index = branch.1.cursor := by
    apply Nat.le_antisymm (within index List.mem_cons_self)
    refine Nat.le_of_not_lt fun before => ?_
    cases unfinished.symm.trans (passed child (Tree.mem_take_iff.mpr ⟨index, before, here⟩))
  refine ⟨cursor, List.eq_nil_iff_forall_not_mem.mpr fun place member => ?_⟩
  have later := (List.pairwise_cons.mp sorted).1 place member
  have within := within place (List.mem_cons_of_mem _ member)
  omega

/-- In a serial group the child that is visited is the last one in reach. -/
theorem PassAccounted.last
    (kept : PassAccounted before width (index :: rest) branch world status)
    (sorted : (index :: rest).Pairwise (· < ·)) (here : branch.2[index]? = some child)
    (unfinished : child.standing.isFinished = false) (serial : branch.1.isSerial) :
    index = branch.1.cursor ∧ rest = [] ∧ status = .finished ∧
      ∀ child ∈ branch.2.take branch.1.cursor, child.standing.isFinished := by
  have passed := (kept.passed serial).resolve_left fun none => List.cons_ne_nil _ _ none.1
  obtain ⟨cursor, none⟩ := last_of_passed sorted here unfinished
    (fun place member => (kept.within serial place member).1) passed
  exact ⟨cursor, none, (kept.within serial index List.mem_cons_self).2, passed⟩

/-- In a serial group nothing is left to visit after that child. -/
theorem PassAccounted.noneLeft {p : Nat → Prop}
    (kept : PassAccounted before width (index :: rest) branch world status)
    (sorted : (index :: rest).Pairwise (· < ·)) (here : branch.2[index]? = some child)
    (unfinished : child.standing.isFinished = false) (serial : branch.1.isSerial) :
    ∀ place ∈ rest, p place := by
  obtain ⟨-, rfl, -⟩ := kept.last sorted here unfinished serial
  exact fun _ member => absurd member List.not_mem_nil

/-- The children once one of them was visited. -/
theorem PassAccounted.put
    (kept : PassAccounted before width (index :: rest) branch world status)
    (grows : world.Grows there) (accounts : failed.Accounts before answer there) :
    ∀ child ∈ (branch.put index failed).2, child.Every (Tree.Accounted before there.runner) := by
  intro child member
  rcases List.mem_or_eq_of_mem_set member with old | same
  · exact (kept.every child old).mono fun node accounted => accounted.grows grows.runner
  · exact same ▸ accounts.every

theorem PassAccounted.passes
    (kept : PassAccounted before width (index :: rest) branch world status)
    (sorted : (index :: rest).Pairwise (· < ·)) (here : branch.2[index]? = some child)
    (unfinished : child.standing.isFinished = false) (grows : world.Grows there)
    (accounts : failed.Accounts before (.ok ()) there) :
    PassAccounted before width rest ((branch.put index failed).cleared failed) there
      (min status failed.standing.propagatedChecking) := by
  have regular : failed.standing.Regular := accounts.every.self.1
  have inside : index < branch.2.length := (List.getElem?_eq_some_iff.mp here).1
  have elsewhere : ∀ place, place ≠ index → (branch.2.set index failed)[place]? = branch.2[place]? :=
    fun place other => List.getElem?_set_ne other.symm
  have serial : ((branch.put index failed).cleared failed).1.isSerial = branch.1.isSerial :=
    Group.isSerial_setFailed _ _
  have cursor : ((branch.put index failed).cleared failed).1.cursor = branch.1.cursor :=
    Group.cursor_setFailed _ _
  have span := span_eq serial cursor (List.length_set ..)
  have checking : failed.standing.propagatedChecking = failed.standing.checking := by
    simp [Standing.propagatedChecking, regular.checked]
  -- The group waits for nothing only if it did so before and the visited child has finished.
  have least := Checking.min_plain kept.plain (checking ▸ regular.plain)
  constructor
  case unknown => exact (congrArg Standing.result (Group.standing_setFailed _ _)).trans kept.unknown
  case normal =>
    exact (congrArg Standing.propagation (Group.standing_setFailed _ _)).trans kept.normal
  case every => exact kept.put grows accounts
  case spent =>
    intro leaf member failure
    rcases List.mem_or_eq_of_mem_set member with old | same
    · exact kept.spent leaf old failure
    · exact absurd failure (accounts.fine rfl leaf same.symm)
  case plain => exact least.imp_right And.left
  case told =>
    intro closed
    obtain ⟨-, closed, finished⟩ := least.resolve_left fun waits => by cases closed.symm.trans waits
    replace finished : failed.standing.isFinished := by simp [Standing.isFinished, ← checking, finished]
    cases kept.told closed with
    | @blamed place other at' visited bad =>
        have elsewhere := elsewhere place (List.ne_of_not_mem_cons visited)
        have bad := bad.imp_right fun guilty => guilty.grows grows.runner
        exact .blamed (elsewhere.trans at') (List.not_mem_of_not_mem_cons visited) bad
    | done span' done =>
        refine .done (span.trans span') fun place other at' inside' visited => ?_
        by_cases same : place = index
        · subst same
          cases at'.symm.trans (List.getElem?_set_self inside)
          exact finished
        · exact done place other ((elsewhere place same).symm.trans at') inside'
            (List.not_mem_cons_of_ne_of_not_mem same visited)
  case within =>
    exact fun serial' => kept.noneLeft sorted here unfinished (serial ▸ serial')
  case passed =>
    intro serial'
    obtain ⟨last, -, -, passed⟩ := kept.last sorted here unfinished (serial ▸ serial')
    right
    rw [cursor]
    change ∀ child ∈ (branch.2.set index failed).take _, _
    rw [List.take_set_of_le (Nat.le_of_eq last.symm)]
    exact passed

/-- A failed child that is left as it is has been given up, so it is to blame. -/
theorem PassAccounted.givesUp
    (kept : PassAccounted before width (index :: rest) branch world status)
    (sorted : (index :: rest).Pairwise (· < ·)) (here : branch.2[index]? = some child)
    (unfinished : child.standing.isFinished = false) (grows : world.Grows there)
    (accounts : failed.Accounts before (failedBy failure) there)
    (answers : Answers (branch.put index failed) index failed failure (.ok again) next)
    (same : next.2 = (branch.put index failed).2)
    (spent : failure.isAborted = false → failed.standing.mayTry = false) :
    PassAccounted before width rest next there status := by
  have serial : next.1.isSerial = branch.1.isSerial := answers.isSerial
  constructor
  case unknown => exact answers.result.trans kept.unknown
  case normal => exact answers.propagation.trans kept.normal
  case every => exact same ▸ kept.put grows accounts
  case spent =>
    intro leaf member failed'
    rw [same] at member
    rcases List.mem_or_eq_of_mem_set member with old | new
    · exact kept.spent leaf old failed'
    · subst new
      apply spent
      rw [← Bool.not_eq_true]
      -- An aborted leaf would have ended the child with an aborted failure.
      exact fun aborted => accounts.aborted failure rfl aborted leaf rfl failed'
  case plain => exact kept.plain
  case told =>
    have visited : index ∉ rest := (List.nodup_cons.mp (sorted.imp Nat.ne_of_lt)).1
    exact fun _ => .blamed (same ▸ getElem?_put_self here failed) visited
      (.inl (accounts.failed failure rfl))
  case within =>
    exact fun serial' => kept.noneLeft sorted here unfinished (serial ▸ serial')
  case passed =>
    intro serial'
    obtain ⟨-, none, closed, -⟩ := kept.last sorted here unfinished (serial ▸ serial')
    exact .inl ⟨none, closed⟩

/-- A failed child that is prepared for another attempt is to blame only if this is up
to an outer retry scope. In its own scope the group goes on waiting. -/
theorem PassAccounted.retries
    (kept : PassAccounted before width (index :: rest) branch world status)
    (sorted : (index :: rest).Pairwise (· < ·)) (here : branch.2[index]? = some child)
    (unfinished : child.standing.isFinished = false) (grows : world.Grows there)
    (accounts : failed.Accounts before (failedBy failure) there)
    (answers : Answers (branch.put index failed) index failed failure (.ok again) next)
    (same : next.2 = ((branch.put index failed).retried index failed).2)
    (asked : again = !failed.standing.newScope) (restarts : branch.1.isSerial → next.1.cursor = 0) :
    PassAccounted before width rest next there (if again then .mustCheck else status) := by
  have bad := accounts.failed failure rfl
  have serial : next.1.isSerial = branch.1.isSerial := answers.isSerial
  have every := kept.put grows accounts
  -- Whatever is prepared anew had come to a result.
  have retried : ∀ other ∈ next.2, other ∈ branch.2 ∨ ∃ old ∈ (branch.put index failed).2,
      old.standing.result ≠ .unknown ∧ other = old.prepare failed.standing.newScope := by
    intro other member
    rw [same] at member
    have atWork := fun serial => (kept.last sorted here unfinished serial).1
    rcases mem_retried here atWork member with rfl | ⟨place, -, at'⟩ |
      ⟨serial, old, among, place, different, at', rfl⟩
    · exact .inr ⟨failed, List.mem_of_getElem? (getElem?_put_self here failed),
        BuildResult.known_of_isBad bad, rfl⟩
    · exact .inl (List.mem_of_getElem? at')
    · obtain ⟨-, -, -, passed⟩ := kept.last sorted here unfinished serial
      have inside := List.mem_of_getElem? at'
      refine .inr ⟨old, List.mem_of_getElem? ((List.getElem?_set_ne different.symm).trans at'), ?_, rfl⟩
      exact (kept.every old inside).self.1.known (passed old among)
  constructor
  case unknown => exact answers.result.trans kept.unknown
  case normal => exact answers.propagation.trans kept.normal
  case every =>
    intro other member
    rcases retried other member with old | ⟨old, among, known, rfl⟩
    · exact (kept.every other old).mono fun node accounted => accounted.grows grows.runner
    · exact (every old among).prepared ((every old among).self.prepare known _)
  case spent =>
    intro leaf member failed'
    rcases retried _ member with old | ⟨old, -, -, same⟩
    · exact kept.spent leaf old failed'
    · have unknown := congrArg (fun tree : Tree => tree.standing.result) same
      rw [Tree.standing_prepare] at unknown
      cases failed'.symm.trans unknown
  case plain =>
    split
    · exact .inl rfl
    · exact kept.plain
  case told =>
    intro closed
    cases scope : failed.standing.newScope with
    | false =>
        rw [asked, scope] at closed
        cases closed
    | true =>
        have visited : index ∉ rest := (List.nodup_cons.mp (sorted.imp Nat.ne_of_lt)).1
        have here' : next.2[index]? = some (failed.prepare true) := by
          rw [same, ← scope]
          exact getElem?_retried here fun serial => (kept.last sorted here unfinished serial).1
        exact .blamed here' visited (.inr (accounts.every.self.promised bad scope))
  case within =>
    exact fun serial' => kept.noneLeft sorted here unfinished (serial ▸ serial')
  case passed =>
    intro serial'
    right
    rw [restarts (serial ▸ serial')]
    exact fun child member => absurd member List.not_mem_nil

theorem PassAccounted.fails
    (kept : PassAccounted before width (index :: rest) branch world status)
    (sorted : (index :: rest).Pairwise (· < ·)) (here : branch.2[index]? = some child)
    (unfinished : child.standing.isFinished = false) (grows : world.Grows there)
    (accounts : failed.Accounts before (failedBy failure) there)
    (answers : Answers (branch.put index failed) index failed failure (.ok again) next) :
    PassAccounted before width rest next there (if again then .mustCheck else status) := by
  have known := BuildResult.known_of_isBad (accounts.failed failure rfl)
  have regular := accounts.every.self.1
  rcases answers.plain (getElem?_put_self here failed) regular.normal (regular.finished known) with
    ⟨same, rfl, spent⟩ | ⟨asked, same, restarts⟩
  · exact kept.givesUp sorted here unfinished grows accounts answers same spent
  · exact kept.retries sorted here unfinished grows accounts answers same asked restarts

end

/-- The visits that leave every failure with somebody to blame. -/
def blameCourse (before : Runner) : Course Tree := fun child world answer next after =>
  Answered answer → child.standing.isFinished = false →
    child.Every (Tree.Accounted before world.runner) → next.Accounts before answer after

theorem Pass.accounted {before : Runner} {now : Instant} {width : Nat} {indices : List Nat}
    {branch last : Branch} {world after : World} {status final : Checking}
    (pass : Pass (fun child world answer next after =>
        Tree.Sweeps now child world answer next after ∧
          blameCourse before child world answer next after)
      indices branch world status (.ok final) last after)
    (sorted : indices.Pairwise (· < ·))
    (kept : PassAccounted before width indices branch world status) :
    PassAccounted before width [] last after final := by
  refine (pass.arrives (p := fun indices branch world status => indices.Pairwise (· < ·) ∧
    PassAccounted before width indices branch world status) ?_ ?_ ?_ ⟨sorted, kept⟩).2
  · rintro index rest branch world status ⟨sorted, kept⟩ finished
    exact ⟨sorted.of_cons, kept.skips finished⟩
  · rintro index rest branch world status child next there ⟨sorted, kept⟩ here unfinished visit
    have accounts := visit.2 .ok unfinished (kept.every _ (List.mem_of_getElem? here))
    exact ⟨sorted.of_cons, kept.passes sorted here unfinished visit.1.grows accounts⟩
  · rintro index rest branch world status child next there failure again answered
      ⟨sorted, kept⟩ here unfinished visit answers
    have accounts := visit.2 (.failed failure) unfinished (kept.every _ (List.mem_of_getElem? here))
    exact ⟨sorted.of_cons, kept.fails sorted here unfinished visit.1.grows accounts answers⟩

theorem PassAccounted.start {before : Runner} {group : Group} {children : List Tree} {world : World}
    (every : (Tree.branch group children).Every (Tree.Accounted before world.runner))
    (unfinished : group.standing.isFinished = false) (now : Instant) :
    PassAccounted before (begun (group, children) now).span
      (List.range (begun (group, children) now).span) (begun (group, children) now) world
      .finished := by
  obtain ⟨⟨regular, accounted⟩, below⟩ := Tree.every_branch.mp every
  obtain ⟨-, unknown⟩ := regular.waits unfinished
  obtain ⟨time, same⟩ := Group.standing_begun group now
  have cursor : (begun (group, children) now).1.cursor = group.cursor := Group.cursor_begun group now
  constructor
  case unknown => exact (congrArg Standing.result same).trans unknown
  case normal => exact (congrArg Standing.propagation same).trans regular.normal
  case every => exact below
  case spent => exact accounted.spent
  case plain => exact .inr rfl
  case told =>
    exact fun _ => .done rfl fun place child _ inside visited =>
      absurd (List.mem_range.mpr inside) visited
  case within => exact fun serial place member => ⟨le_cursor_of_mem_range serial member, rfl⟩
  case passed =>
    intro serial
    right
    rw [cursor]
    exact accounted.passed ((Group.isSerial_begun group now).symm.trans serial) unknown

/-- At the end of a pass that leaves nothing to wait for, a child that does not look
well is to blame. -/
theorem PassAccounted.guilty {before : Runner} {width : Nat} {branch : Branch} {world : World}
    (kept : PassAccounted before width [] branch world .finished)
    {child : Tree} (member : child ∈ branch.2.take branch.span)
    (failure : child.standing.propagatedResult = .failure) :
    ∃ child ∈ branch.2, child.Guilty before world.runner := by
  have guilty : ∀ child ∈ branch.2, child.standing.result.isBad →
      child.Guilty before world.runner := fun child member bad =>
    (kept.every child member).self.guilty bad fun leaf same =>
      kept.spent leaf (same ▸ member)
  have inside := List.mem_of_mem_take member
  have regular := (kept.every child inside).self.1
  cases kept.told rfl with
  | @blamed _ other here _ bad =>
      have among := List.mem_of_getElem? here
      exact ⟨other, among, bad.elim (guilty other among) id⟩
  | done span done =>
      refine ⟨child, inside, guilty child inside ?_⟩
      obtain ⟨place, within, at'⟩ := Tree.mem_take_iff.mp member
      have known := regular.known (done place child at' (span ▸ within) List.not_mem_nil)
      exact ((Standing.propagatedResult_eq_failure regular.normal).mp failure).resolve_right known

theorem PassAccounted.closed {before : Runner} {width : Nat} {branch : Branch} {world : World}
    {status : Checking} (kept : PassAccounted before width [] branch world status) :
    PassAccounted before width [] (branch.closed status) world status where
  unknown := (result_closed branch status).trans kept.unknown
  normal := (propagation_closed branch status).trans kept.normal
  every := kept.every
  spent := kept.spent
  plain := kept.plain
  told closed := by
    cases kept.told closed with
    | blamed here visited bad => exact .blamed here visited bad
    | done span finished => exact .done span finished
  within := kept.within
  passed := kept.passed

/-! ### How a group ends -/

section

variable {before : Runner} {now : Instant} {width : Nat} {branch last : Branch} {world : World}
  {status : Checking} {answer : Except Halt Unit}

theorem accounts_branch (branch : Branch) (regular : branch.1.standing.Regular)
    (accounted : branch.Accounted before world.runner)
    (every : ∀ child ∈ branch.2, child.Every (Tree.Accounted before world.runner))
    (failed : ∀ failure, answer = failedBy failure → branch.1.standing.result.isBad) :
    (Tree.branch branch.1 branch.2).Accounts before answer world where
  every := Tree.every_branch.mpr ⟨⟨regular, accounted⟩, every⟩
  fine _ _ same := Tree.noConfusion same
  failed := failed
  aborted _ _ _ _ same := Tree.noConfusion same

theorem PassAccounted.waits (kept : PassAccounted before width [] branch world .mustCheck)
    (checking : branch.1.standing.checking = .mustCheck) (inhabited : branch.2 ≠ []) :
    (Tree.branch branch.1 branch.2).Accounts before (.ok ()) world := by
  apply accounts_branch branch ⟨kept.normal, .inl ⟨checking, kept.unknown⟩⟩ _ kept.every
  · exact fun failure failed => by cases failed
  · refine ⟨inhabited, fun bad => ?_, kept.spent, fun serial _ => ?_⟩
    · exact absurd kept.unknown (BuildResult.known_of_isBad bad)
    · exact (kept.passed serial).resolve_left fun none => by cases none.2

/-- Somebody in reach does not look well where the group fails. -/
theorem PassAccounted.failed (kept : PassAccounted before width [] branch world .finished)
    (checking : branch.1.standing.checking = .finished) (inhabited : branch.2 ≠ [])
    (failure : (branch.aggregate branch.span).isFailure) :
    (Tree.branch branch.summed.1 branch.summed.2).Accounts before answer world := by
  obtain ⟨least, member, same⟩ := exists_of_aggregate kept.unknown (take_span_ne_nil inhabited)
  have bad := BuildResult.isBad_of_isFailure failure
  have known := BuildResult.known_of_isBad bad
  apply accounts_branch branch.summed ⟨kept.normal, .inr ⟨checking, known⟩⟩ _
    kept.every fun _ _ => bad
  refine ⟨inhabited, fun _ => ?_, kept.spent, fun _ unknown => absurd unknown known⟩
  apply kept.guilty member
  rw [same] at failure
  rcases least.standing.propagatedResult_range with good | unstable | failed
  · cases good ▸ failure
  · cases unstable ▸ failure
  · exact failed

/-- The children behind which a serial group moves on are done, for they look well. -/
theorem PassAccounted.moves (kept : PassAccounted before width [] branch world status)
    (inhabited : branch.2 ≠ []) (fine : (branch.aggregate branch.span).isFailure = false)
    (serial : branch.1.isSerial) (more : branch.1.cursor + 1 < branch.2.length) :
    (Tree.branch branch.moved.waiting.1 branch.moved.waiting.2).Accounts before (.ok ()) world := by
  have normal : branch.moved.waiting.1.standing.propagation = .normal :=
    (congrArg Standing.propagation branch.standing_moved).trans kept.normal
  have cursor : branch.moved.waiting.1.cursor = branch.1.cursor + 1 :=
    Group.cursor_setCursor serial _
  have span : branch.span = branch.1.cursor + 1 :=
    (span_serial serial).trans (Nat.min_eq_left (Nat.le_of_lt more))
  apply accounts_branch branch.moved.waiting ⟨normal, .inl ⟨rfl, rfl⟩⟩ _ kept.every
  · exact fun failure failed => by cases failed
  · refine ⟨inhabited, fun bad => (by cases bad), kept.spent, fun _ _ child member => ?_⟩
    have reached : child ∈ branch.2.take branch.span := by
      rw [span, ← cursor]
      exact member
    have regular := (kept.every child (List.mem_of_mem_take reached)).self.1
    have known : child.standing.result ≠ .unknown := fun unknown =>
      fine_of_aggregate fine reached
        ((Standing.propagatedResult_eq_failure regular.normal).mpr (.inr unknown))
    simp [Standing.isFinished, regular.finished known]

theorem PassAccounted.ends (kept : PassAccounted before width [] branch world .finished)
    (checking : branch.1.standing.checking = .finished) (inhabited : branch.2 ≠ [])
    (fine : (branch.aggregate branch.span).isFailure = false) :
    (Tree.branch branch.summed.moved.1 branch.summed.moved.2).Accounts before (.ok ()) world := by
  obtain ⟨least, -, same⟩ := exists_of_aggregate kept.unknown (take_span_ne_nil inhabited)
  have good : (branch.aggregate branch.span).isBad = false ∧
      branch.aggregate branch.span ≠ .unknown := by
    rw [same] at fine ⊢
    rcases least.standing.propagatedResult_range with good | unstable | failed
    · exact good ▸ ⟨rfl, BuildResult.noConfusion⟩
    · exact unstable ▸ ⟨rfl, BuildResult.noConfusion⟩
    · cases failed ▸ fine
  have standing : branch.summed.moved.1.standing = branch.summed.1.standing :=
    branch.summed.standing_moved
  have result : branch.summed.moved.1.standing.result = branch.aggregate branch.span :=
    congrArg Standing.result standing
  apply accounts_branch branch.summed.moved _ _ kept.every
  · exact fun failure failed => by cases failed
  · rw [standing]
    exact ⟨kept.normal, .inr ⟨checking, good.2⟩⟩
  · refine ⟨inhabited, fun bad => ?_, kept.spent, fun _ unknown => ?_⟩
    · cases (result ▸ good.1).symm.trans bad
    · exact absurd (result.symm.trans unknown) good.2

/-- A group that comes to its result has somebody to blame if this is a failure. -/
theorem Closes.accounts (closes : Closes now branch status answer last) (answered : Answered answer)
    (kept : PassAccounted before width [] branch world status)
    (checking : branch.1.standing.checking = status) (inhabited : branch.2 ≠ []) :
    (Tree.branch last.1 last.2).Accounts before answer world := by
  have closed : isPending status branch = false → status = .finished := fun settled =>
    kept.plain.resolve_left (settled_iff.mp settled).1
  cases closes with
  | pending pending =>
      obtain rfl := (isPending_iff.mp pending).resolve_right fun known => known kept.unknown
      exact kept.waits checking inhabited
  | overdue => cases answered
  | fails settled failure =>
      obtain rfl := closed settled
      exact kept.failed checking inhabited failure
  | moves _ fine serial more => exact kept.moves inhabited fine serial more
  | ends settled fine =>
      obtain rfl := closed settled
      exact kept.ends checking inhabited fine

end

theorem Sweeps.accounted {before : Runner} {now : Instant} {group group' : Group}
    {children children' : List Tree} {world after : World} {answer : Except Halt Unit}
    (sweeps : Sweeps now (fun child world answer next after =>
        Tree.Sweeps now child world answer next after ∧
          blameCourse before child world answer next after)
      (group, children) world answer (group', children') after) (answered : Answered answer)
    (unfinished : group.standing.isFinished = false)
    (every : (Tree.branch group children).Every (Tree.Accounted before world.runner)) :
    (Tree.branch group' children').Accounts before answer after := by
  cases sweeps with
  | halts pass => cases answered; exact absurd rfl (pass.hard _)
  | @closes passed _ _ status _ pass closes =>
      have kept := pass.accounted List.pairwise_lt_range (.start every unfinished now)
      have layout := pass.blank fun visit => visit.1.blank
      have inhabited : passed.2 ≠ [] := by
        have lengths : passed.2.length = children.length := length_of_layout layout
        rw [← List.length_pos_iff, lengths, List.length_pos_iff]
        exact every.self.2.inhabited
      exact closes.accounts answered kept.closed rfl inhabited

end Branch

/-- Every sweep leaves a failure with somebody to blame. -/
theorem Tree.Sweeps.accounts {before : Runner} {now : Instant} {tree next : Tree}
    {world after : World} {answer : Except Halt Unit}
    (sweeps : Tree.Sweeps now tree world answer next after) (answered : Answered answer)
    (unfinished : tree.standing.isFinished = false)
    (every : tree.Every (Accounted before world.runner)) : next.Accounts before answer after := by
  refine sweeps.rule (p := Branch.blameCourse before) ?_ ?_ answered unfinished every
  · intro leaf world answer leaf' after follows answered unfinished every
    exact follows.accounts answered unfinished (every_task.mp every)
  · intro group children world answer group' children' after sweeps answered unfinished every
    exact sweeps.accounted answered unfinished every

end BuildFlow
