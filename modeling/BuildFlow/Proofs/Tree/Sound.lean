import BuildFlow.Proofs.Tree.Growth
import BuildFlow.Proofs.Tree.Layout
/-!
What a stored result stands for. An invocation that is not unchecked follows a
build of its own, and its result is the one that this build ended with; a group
that succeeded has no child left that it takes for anything but a success. Every
sweep keeps this, whatever is tried again on the way.
-/
namespace BuildFlow

/-- The results that count as a success. -/
def BuildResult.IsGood (result : BuildResult) : Prop := result = .success ∨ result = .superseded

/-- The results that a node passes on as something better than a failure. -/
def BuildResult.IsFine (result : BuildResult) : Prop :=
  result = .success ∨ result = .superseded ∨ result = .unstable

instance : DecidablePred BuildResult.IsFine := fun result =>
  inferInstanceAs (Decidable (result = .success ∨ result = .superseded ∨ result = .unstable))

theorem Progress.eq_idle {progress : Progress} (idle : progress.isIdle) : progress = .idle := by
  cases progress with
  | idle => rfl
  | running => cases idle
  | queued => cases idle

theorem BuildResult.IsGood.fine {result : BuildResult} (good : result.IsGood) :
    result.isFailure = false := by
  rcases good with good | good <;> rw [good] <;> rfl

theorem BuildResult.IsGood.known {result : BuildResult} (good : result.IsGood) :
    result ≠ .unknown := by
  rcases good with good | good <;> rw [good] <;> exact BuildResult.noConfusion

theorem BuildResult.IsFine.known {result : BuildResult} (fine : result.IsFine) :
    result ≠ .unknown := by
  rcases fine with fine | fine | fine <;> rw [fine] <;> exact BuildResult.noConfusion

theorem Standing.isFinished_prepare (standing : Standing) (scope : Bool) :
    (standing.prepare scope).isFinished = false := by
  unfold prepare isFinished
  dsimp only
  split <;> rfl

/-! ## Invocations -/

namespace Task

/-- What an invocation knows of its builds is true. -/
structure Sound (runner : Runner) (task : Task) : Prop where
  settled : task.standing.isFinished ↔ task.standing.result ≠ .unknown
  anchored : ∀ ref, task.build = some ref →
    ref.job = task.name ∧ ∃ build, runner.build? ref = some build
  followed : task.isUnchecked = false → task.standing.isInvoked → ∃ ref, task.build = some ref
  reported : task.isUnchecked = false → task.standing.result ≠ .unknown →
    task.standing.result.isFailure = false →
    ∃ ref, task.build = some ref ∧ runner.report? ref = some (task.standing.result, .idle)

theorem Sound.grows {before after : Runner} {task : Task} (sound : task.Sound before)
    (grows : before.Grows after) : task.Sound after where
  settled := sound.settled
  anchored ref followed := by
    obtain ⟨named, build, found⟩ := sound.anchored ref followed
    obtain ⟨next, found, -⟩ := grows.build? found
    exact ⟨named, next, found⟩
  followed := sound.followed
  reported checked known fine := by
    obtain ⟨ref, followed, reported⟩ := sound.reported checked known fine
    exact ⟨ref, followed, grows.report? reported⟩

theorem Sound.unknown {runner : Runner} {task : Task} (sound : task.Sound runner)
    (unfinished : task.standing.isFinished = false) : task.standing.result = .unknown := by
  simpa [unfinished] using sound.settled

theorem Sound.prepare {runner : Runner} {task : Task} (sound : task.Sound runner) (scope : Bool) :
    (task.prepare scope).Sound runner where
  settled := iff_of_false
    (fun finished => Bool.false_ne_true ((Standing.isFinished_prepare _ scope).symm.trans finished))
    fun known => known rfl
  anchored := sound.anchored
  followed _ invoked := by simp [Task.prepare, Standing.prepare, Standing.isInvoked, Instant.none,
    Instant.isSet] at invoked
  reported _ known := absurd rfl known

theorem Found.sound {task found : Task} {world there : World}
    (finds : Found task world found there) (sound : task.Sound world.runner) :
    found.Sound there.runner := by
  have grown := sound.grows finds.grows.runner
  cases finds with
  | known => exact grown
  | listed => exact ⟨grown.settled, grown.anchored, grown.followed, grown.reported⟩
  | looked => exact ⟨grown.settled, grown.anchored, grown.followed, grown.reported⟩

/-- The build that was started last is there. -/
theorem build?_invoked {runner after : Runner} {name : String} {request : InvokeRequest}
    {ref : BuildRef} (invoked : runner.invoke? name request = some (ref, after)) :
    ref.job = name ∧ ∃ build, after.build? ref = some build ∧ build.number = ref.number := by
  obtain ⟨job, found, made⟩ := Option.map_eq_some_iff.mp invoked
  cases made
  refine ⟨rfl, (job.supersede runner.tick).nextBuild runner.tick request, ?_, ?_⟩
  · have present := (Runner.job?_eq_some.mp found).2
    have listed : (runner.setJob name (job.invoke runner.tick request)).job? name =
        some (job.invoke runner.tick request) := by
      rw [Runner.job?_eq_some, Runner.get?_setJob, if_pos rfl]
      exact ⟨rfl, present⟩
    refine Option.bind_eq_some_iff.mpr ⟨_, listed, ?_⟩
    simp [Job.invoke, Job.supersede]
  · exact Job.number_nextBuild_supersede job runner.tick request

theorem Begun.sound {now : Instant} {task begun : Task} {world after : World}
    (begins : Begun now task world begun after) (sound : task.Sound world.runner)
    (unfinished : task.standing.isFinished = false) :
    begun.Sound after.runner ∧ (task.isUnchecked = false → ∃ ref, begun.build = some ref) := by
  have unknown := sound.unknown unfinished
  have grown := sound.grows begins.grows.runner
  cases begins with
  | going invoked => exact ⟨grown, fun checked => grown.followed checked invoked⟩
  | joins _ unchecked =>
      have impossible : ∀ {p : Prop}, task.isUnchecked = false → p := fun checked => by
        rw [unchecked] at checked
        cases checked
      exact ⟨⟨grown.settled, grown.anchored, fun checked => impossible checked,
        fun checked => impossible checked⟩, fun checked => impossible checked⟩
  | @starts _ _ _ ref _ invoked =>
      refine ⟨⟨grown.settled, ?_, fun _ _ => ⟨ref, rfl⟩, fun _ known => absurd unknown known⟩,
        fun _ => ⟨ref, rfl⟩⟩
      intro other followed
      cases followed
      obtain ⟨named, build, held, -⟩ := build?_invoked invoked
      exact ⟨named, build, held⟩

theorem Observed.report {task : Task} {world : World} {result : BuildResult} {progress : Progress}
    (observes : Observed task world result progress) {ref : BuildRef}
    (followed : task.build = some ref) : world.runner.report? ref = some (result, progress) := by
  cases observes with
  | job unstarted => cases unstarted.symm.trans followed
  | build followed' found held =>
      cases followed'.symm.trans followed
      rw [Runner.report?, Runner.build?, found, Option.bind_some, held]
      rfl

/-- What is observed is how the build stands that is followed. -/
theorem Observed.held {task : Task} {world : World} {result : BuildResult} {progress : Progress}
    (observes : Observed task world result progress) {ref : BuildRef} {build : Build}
    (followed : task.build = some ref)
    (held : (world.runner.buildsOf ref.job)[ref.index]? = some build) :
    result = build.result world.runner.tick ∧ progress = build.progress world.runner.tick := by
  cases observes with
  | job unstarted => cases unstarted.symm.trans followed
  | build followed' found held' =>
      cases followed'.symm.trans followed
      rw [Runner.buildsOf_of_job? found] at held
      cases held'.symm.trans held
      exact ⟨rfl, rfl⟩

theorem Attempted.checking {task after : Task} (attempted : Attempted task after) :
    after.standing.checking = task.standing.checking := by
  obtain ⟨_, _, _, _, rfl⟩ := attempted
  rfl

theorem Attempted.propagation {task after : Task} (attempted : Attempted task after) :
    after.standing.propagation = task.standing.propagation := by
  obtain ⟨_, _, _, _, rfl⟩ := attempted
  rfl

theorem Attempted.isUnchecked {task after : Task} (attempted : Attempted task after) :
    after.isUnchecked = task.isUnchecked := by
  obtain ⟨_, _, _, _, rfl⟩ := attempted
  rfl

theorem Attempted.isFinished {task after : Task} (attempted : Attempted task after) :
    after.standing.isFinished = task.standing.isFinished := by
  obtain ⟨_, _, _, _, rfl⟩ := attempted
  rfl

theorem Follows.sound {now : Instant} {task next : Task} {world after : World}
    {answer : Except Halt Unit} (follows : Follows now task world answer next after)
    (answered : Answered answer) (sound : task.Sound world.runner)
    (unfinished : task.standing.isFinished = false) : next.Sound after.runner := by
  have grown := sound.grows follows.grows.runner
  cases follows with
  | missing =>
      exact ⟨by simp [ended, Standing.isFinished], grown.anchored, grown.followed,
        fun _ _ fine => by cases fine⟩
  | waits finds begins =>
      exact (begins.sound (finds.sound sound) (finds.attempted.isFinished.trans unfinished)).1
  | ends finds begins observes idle known =>
      obtain ⟨begun, follows⟩ :=
        begins.sound (finds.sound sound) (finds.attempted.isFinished.trans unfinished)
      refine ⟨by simp [ended, Standing.isFinished, known], begun.anchored, begun.followed, ?_⟩
      intro checked _ _
      have checked' : _ = false := begins.attempted.isUnchecked.symm.trans checked
      obtain ⟨ref, followed⟩ := follows checked'
      have reported := observes.report followed
      rw [Progress.eq_idle idle] at reported
      exact ⟨ref, followed, reported⟩
  | strays _ _ _ strays => cases answered; cases strays
  | lost => cases answered

theorem Follows.propagation {now : Instant} {task next : Task} {world after : World}
    {answer : Except Halt Unit} (follows : Follows now task world answer next after) :
    next.standing.propagation = task.standing.propagation := by
  cases follows with
  | missing => rfl
  | waits finds begins => exact (finds.attempted.trans begins.attempted).propagation
  | ends finds begins => exact (finds.attempted.trans begins.attempted).propagation
  | strays attempted => exact attempted.propagation
  | lost finds begins => exact (finds.attempted.trans begins.attempted).propagation

theorem Follows.failed {now : Instant} {task next : Task} {world after : World}
    {answer : Except Halt Unit} {failure : JobFailure}
    (follows : Follows now task world answer next after) (failed : answer = failedBy failure) :
    next.standing.result.isFailure := by
  cases follows with
  | missing => rfl
  | waits => cases failed
  | ends =>
      unfold ending at failed
      split at failed
      · assumption
      · cases failed
  | strays _ _ _ strays => cases failed; cases strays
  | lost => cases failed

end Task

/-! ## Trees -/

theorem Checking.min_eq_mustCheck {left right : Checking} :
    min left right = .mustCheck ↔ left = .mustCheck ∨ right = .mustCheck := by
  cases left <;> cases right <;> decide

namespace Standing

theorem propagatedChecking_eq_mustCheck {standing : Standing} :
    standing.propagatedChecking = .mustCheck ↔
      standing.isUnchecked = false ∧ standing.checking = .mustCheck := by
  unfold propagatedChecking
  cases standing.isUnchecked with
  | false => simp
  | true => cases standing.checking <;> simp <;> decide

theorem unfinished {standing : Standing} (mustCheck : standing.checking = .mustCheck) :
    standing.isFinished = false := by
  simp [isFinished, mustCheck]

theorem unwaited {standing : Standing} (finished : standing.isFinished) :
    standing.propagatedChecking ≠ .mustCheck := by
  intro waited
  rw [unfinished (propagatedChecking_eq_mustCheck.mp waited).2] at finished
  cases finished

theorem abnormal_of_unchecked {standing : Standing} (unchecked : standing.isUnchecked) :
    standing.propagation ≠ .normal := by
  have unchecked : standing.propagation = .unchecked := by simpa [isUnchecked] using unchecked
  exact unchecked ▸ Propagation.noConfusion

theorem propagatedResult_of_good {standing : Standing} (good : standing.result.IsGood) :
    standing.propagatedResult = .success := by
  rcases good with good | good <;> simp [propagatedResult, good]

theorem propagatedResult_of_unchecked {standing : Standing} (unchecked : standing.isUnchecked) :
    standing.propagatedResult = .success := by
  have unchecked : standing.propagation = .unchecked := by simpa [isUnchecked] using unchecked
  simp [propagatedResult, unchecked]

/-- Only an unchecked node or one that succeeded looks like a success. -/
theorem propagatedResult_eq_success {standing : Standing} :
    standing.propagatedResult = .success ↔ standing.result.IsGood ∨ standing.isUnchecked := by
  constructor
  · intro success
    unfold propagatedResult at success
    split at success
    · next good =>
        rcases good with good | good | unchecked
        · exact .inl (.inl good)
        · exact .inl (.inr good)
        · exact .inr (by simpa [isUnchecked] using unchecked)
    · split at success <;> cases success
  · rintro (good | unchecked)
    · exact propagatedResult_of_good good
    · exact propagatedResult_of_unchecked unchecked

theorem propagatedResult_range (standing : Standing) : standing.propagatedResult = .success ∨
    standing.propagatedResult = .unstable ∨ standing.propagatedResult = .failure := by
  unfold propagatedResult
  split
  · exact .inl rfl
  · split
    · exact .inr (.inl rfl)
    · exact .inr (.inr rfl)

/-- Only a node that reports everything passes on a failure. -/
theorem propagatedResult_eq_failure_iff {standing : Standing} :
    standing.propagatedResult = .failure ↔
      standing.propagation = .normal ∧ ¬ standing.result.IsFine := by
  unfold propagatedResult BuildResult.IsFine
  cases standing.propagation <;> cases standing.result <;> decide

end Standing

namespace Tree

/-- What the result of one node stands for. -/
def Holds (runner : Runner) : Tree → Prop
  | .task leaf => leaf.Sound runner
  | .branch group children =>
      group.standing.result.IsGood →
        ∀ child ∈ children, child.standing.propagatedResult = .success

/-- Every result in the tree is what it stands for. -/
def Sound (runner : Runner) (tree : Tree) : Prop := tree.Every (Holds runner)

theorem sound_task {runner : Runner} {leaf : Task} :
    (Tree.task leaf).Sound runner ↔ leaf.Sound runner := every_task

theorem sound_branch {runner : Runner} {group : Group} {children : List Tree} :
    (Tree.branch group children).Sound runner ↔
      (group.standing.result.IsGood →
        ∀ child ∈ children, child.standing.propagatedResult = .success) ∧
      ∀ child ∈ children, child.Sound runner := every_branch

theorem Sound.grows {before after : Runner} {tree : Tree} (sound : tree.Sound before)
    (grows : before.Grows after) : tree.Sound after := by
  refine Every.mono sound fun node holds => ?_
  cases node with
  | task leaf => exact Task.Sound.grows holds grows
  | branch group children => exact holds

theorem Sound.prepare {runner : Runner} {tree : Tree} (sound : tree.Sound runner) (scope : Bool) :
    (tree.prepare scope).Sound runner := by
  cases tree with
  | task leaf => exact sound_task.mpr ((sound_task.mp sound).prepare scope)
  | branch group children =>
      refine sound_branch.mpr ⟨fun good => ?_, (sound_branch.mp sound).2⟩
      rcases good with good | good <;> cases good

theorem Sound.finish {runner : Runner} {tree : Tree} (sound : tree.Sound runner)
    (known : tree.standing.result ≠ .unknown) : tree.finish.Sound runner := by
  cases tree with
  | task leaf =>
      have leafSound := sound_task.mp sound
      exact sound_task.mpr ⟨⟨fun _ => known, fun _ => rfl⟩, leafSound.anchored,
        leafSound.followed, leafSound.reported⟩
  | branch group children =>
      obtain ⟨good, below⟩ := sound_branch.mp sound
      exact sound_branch.mpr ⟨good, below⟩

/-- Below a node that succeeded every checked invocation did. -/
theorem Sound.good {runner : Runner} {tree : Tree} (sound : tree.Sound runner)
    (good : tree.standing.result.IsGood) :
    ∀ leaf ∈ tree.checkedTasks, leaf.standing.result.IsGood := by
  induction tree using childrenInduction with
  | leaf leaf =>
      intro task member
      unfold checkedTasks at member
      split at member
      · cases member
      · rw [List.mem_singleton.mp member]
        exact good
  | branch group children ih =>
      intro task member
      obtain ⟨successes, below⟩ := sound_branch.mp sound
      unfold checkedTasks at member
      split at member
      · cases member
      · obtain ⟨child, inside, member⟩ := mem_checkedOf.mp member
        rcases Standing.propagatedResult_eq_success.mp (successes good child inside) with
          good | unchecked
        · exact ih child inside (below child inside) good task member
        · rw [checkedTasks_of_unchecked unchecked] at member
          cases member

@[simp] theorem standing_finish (tree : Tree) :
    tree.finish.standing = { tree.standing with checking := .finished } := by
  cases tree <;> rfl

@[simp] theorem standing_prepare (tree : Tree) (scope : Bool) :
    (tree.prepare scope).standing = tree.standing.prepare scope := by
  cases tree <;> rfl

/-- A visit keeps what results stand for. A node that has its result keeps it
and does not fail any more. -/
structure KeepsSound (tree : Tree) (answer : Except Halt Unit) (next : Tree) (after : World) :
    Prop where
  sound : next.Sound after.runner
  propagation : next.standing.propagation = tree.standing.propagation
  kept : tree.standing.result ≠ .unknown →
    answer = .ok () ∧ next.standing.result = tree.standing.result
  failed : ∀ failure, answer = failedBy failure → next.standing.result.isFailure

/-- A node that looks like a success keeps looking like one. -/
theorem KeepsSound.passed {tree next : Tree} {answer : Except Halt Unit} {after : World}
    (keeps : KeepsSound tree answer next after)
    (passed : tree.standing.propagatedResult = .success) :
    next.standing.propagatedResult = .success := by
  rcases Standing.propagatedResult_eq_success.mp passed with good | unchecked
  · apply Standing.propagatedResult_of_good
    rw [(keeps.kept good.known).2]
    exact good
  · apply Standing.propagatedResult_of_unchecked
    unfold Standing.isUnchecked
    rw [keeps.propagation]
    exact unchecked

end Tree

namespace Branch

theorem Answers.result {branch next : Branch} {index : Nat} {child : Tree} {failure : JobFailure}
    {answer : Except Halt Bool} (answers : Answers branch index child failure answer next) :
    next.1.standing.result = branch.1.standing.result := by
  rcases answers.standing with same | same <;> rw [same]
  rfl

theorem Answers.propagation {branch next : Branch} {index : Nat} {child : Tree}
    {failure : JobFailure} {answer : Except Halt Bool}
    (answers : Answers branch index child failure answer next) :
    next.1.standing.propagation = branch.1.standing.propagation := by
  rcases answers.standing with same | same <;> rw [same]
  rfl

theorem Pass.result {course : Course Tree} {indices : List Nat} {branch last : Branch}
    {world after : World} {status : Checking} {answer : Except Halt Checking}
    (pass : Pass course indices branch world status answer last after) :
    last.1.standing.result = branch.1.standing.result :=
  pass.keeps (p := fun middle _ => middle.1.standing.result = branch.1.standing.result)
    (fun same _ _ _ => same)
    (fun same => (congrArg Standing.result (Group.standing_setFailed _ _)).trans same)
    (fun same _ answers => answers.result.trans same) rfl

theorem Pass.propagation {course : Course Tree} {indices : List Nat} {branch last : Branch}
    {world after : World} {status : Checking} {answer : Except Halt Checking}
    (pass : Pass course indices branch world status answer last after) :
    last.1.standing.propagation = branch.1.standing.propagation :=
  pass.keeps (p := fun middle _ => middle.1.standing.propagation = branch.1.standing.propagation)
    (fun same _ _ _ => same)
    (fun same => (congrArg Standing.propagation (Group.standing_setFailed _ _)).trans same)
    (fun same _ answers => answers.propagation.trans same) rfl

/-- An answer finishes the child that failed, or starts new attempts. -/
theorem Answers.touched {branch next : Branch} {index : Nat} {child : Tree} {failure : JobFailure}
    {answer : Except Halt Bool} (answers : Answers branch index child failure answer next)
    {runner : Runner} (sound : ∀ other ∈ branch.2, other.Sound runner) (here : child ∈ branch.2)
    (known : child.standing.result ≠ .unknown) : ∀ other ∈ next.2, other.Sound runner :=
  answers.all sound (sound child here) ((sound child here).finish known)
    fun _ scope sound => sound.prepare scope

/-- A group answers a child that does not report all failures without touching another one. -/
theorem Answers.abnormal {branch next : Branch} {index : Nat} {child : Tree}
    {failure : JobFailure} {answer : Except Halt Bool}
    (answers : Answers branch index child failure answer next)
    (abnormal : child.standing.propagation ≠ .normal) (here : branch.2[index]? = some child) :
    ∃ new, new.standing.propagation = child.standing.propagation ∧
      next.2 = branch.2.set index new := by
  have same : branch.2 = branch.2.set index child := by
    obtain ⟨inside, rfl⟩ := List.getElem?_eq_some_iff.mp here
    exact (List.set_getElem_self inside).symm
  cases answers with
  | aborts =>
      refine ⟨child.finish, by simp, ?_⟩
      unfold aborting
      split <;> rfl
  | abortsUnchecked => exact ⟨child.finish, by simp, rfl⟩
  | stays => exact ⟨child, rfl, same⟩
  | retries _ _ normal =>
      unfold retried
      split
      · next serial =>
          have serial : branch.group.isSerial := (Group.isSerial_setFailed _ _).symm.trans serial
          exact absurd (normal serial) abnormal
      · exact ⟨child.prepare _, by simp [Standing.prepare], rfl⟩
  | overdraws => exact ⟨child, rfl, same⟩
  | ends => exact ⟨child.finish, by simp, rfl⟩
  | endsUnchecked => exact ⟨child.finish, by simp, rfl⟩

/-- A group that answers an unchecked child goes on as before. -/
theorem Answers.group {branch next : Branch} {index : Nat} {child : Tree} {failure : JobFailure}
    {answer : Except Halt Bool} (answers : Answers branch index child failure answer next)
    (unchecked : child.standing.isUnchecked) : next.1 = (branch.noted child).1 := by
  have isUnchecked : child.standing.propagation = .unchecked := by
    simpa [Standing.isUnchecked] using unchecked
  cases answers with
  | aborts _ checked => cases unchecked.symm.trans checked
  | abortsUnchecked => rfl
  | stays => rfl
  | retries _ _ normal =>
      unfold retried
      split
      · next serial =>
          have serial : branch.group.isSerial := (Group.isSerial_setFailed _ _).symm.trans serial
          cases isUnchecked.symm.trans (normal serial)
      · rfl
  | overdraws => rfl
  | ends _ _ checked => cases unchecked.symm.trans checked
  | endsUnchecked => rfl

/-- What a pass over a group keeps: the children stay sound, and what the group
had come to before still stands for them. -/
structure PassSound (start : Group) (branch : Branch) (there : World) : Prop where
  sound : ∀ child ∈ branch.2, child.Sound there.runner
  result : branch.1.standing.result = start.standing.result
  propagation : branch.1.standing.propagation = start.standing.propagation
  good : start.standing.result.IsGood →
    ∀ child ∈ branch.2, child.standing.propagatedResult = .success

theorem PassSound.start {group : Group} {children : List Tree} {world : World}
    (sound : (Tree.branch group children).Sound world.runner) (now : Instant) :
    PassSound (group.begun now) (begun (group, children) now) world := by
  obtain ⟨good, below⟩ := Tree.sound_branch.mp sound
  obtain ⟨time, same⟩ := Group.standing_begun group now
  refine ⟨below, rfl, rfl, fun good' => good ?_⟩
  rwa [same] at good'

/-- The visits that sweeps keep sound. -/
def soundCourse : Course Tree := fun child world answer next after =>
  Answered answer → child.standing.isFinished = false → child.Sound world.runner →
    Tree.KeepsSound child answer next after

theorem PassSound.put {start : Group} {branch : Branch} {world there : World} {index : Nat}
    {child next : Tree} {answer : Except Halt Unit} (sound : PassSound start branch world)
    (here : branch.2[index]? = some child) (grows : world.Grows there)
    (kept : Tree.KeepsSound child answer next there) :
    PassSound start (branch.put index next) there := by
  refine ⟨?_, sound.result, sound.propagation, ?_⟩
  · intro other member
    rcases List.mem_or_eq_of_mem_set member with old | same
    · exact (sound.sound other old).grows grows.runner
    · exact same ▸ kept.sound
  · intro good other member
    rcases List.mem_or_eq_of_mem_set member with old | same
    · exact sound.good good other old
    · subst same
      exact kept.passed (sound.good good child (List.mem_of_getElem? here))

theorem PassSound.passes {start : Group} {branch : Branch} {world there : World} {index : Nat}
    {child next : Tree} (sound : PassSound start branch world)
    (here : branch.2[index]? = some child) (grows : world.Grows there)
    (kept : Tree.KeepsSound child (.ok ()) next there) :
    PassSound start ((branch.put index next).cleared next) there := by
  have after := sound.put here grows kept
  exact ⟨after.sound, by simpa [cleared] using after.result,
    by simpa [cleared] using after.propagation, after.good⟩

theorem PassSound.fails {start : Group} {branch next : Branch} {world there : World} {index : Nat}
    {child failed : Tree} {failure : JobFailure} {again : Bool}
    (sound : PassSound start branch world) (here : branch.2[index]? = some child)
    (grows : world.Grows there) (kept : Tree.KeepsSound child (failedBy failure) failed there)
    (answers : Answers (branch.put index failed) index failed failure (.ok again) next) :
    PassSound start next there := by
  have after := sound.put here grows kept
  have here' := getElem?_put_self here failed
  have known : failed.standing.result ≠ .unknown := fun unknown => by
    have bad := kept.failed failure rfl
    rw [unknown] at bad
    cases bad
  refine ⟨answers.touched after.sound (List.mem_of_getElem? here') known,
    answers.result.trans after.result, answers.propagation.trans after.propagation,
    fun good other member => ?_⟩
  -- A child that fails had no result, so a group that succeeded does not wait for it.
  have unchecked : child.standing.isUnchecked := by
    have success := sound.good good child (List.mem_of_getElem? here)
    rcases Standing.propagatedResult_eq_success.mp success with good | unchecked
    · cases (kept.kept good.known).1
    · exact unchecked
  have unchecked' : failed.standing.isUnchecked := by
    unfold Standing.isUnchecked
    rw [kept.propagation]
    exact unchecked
  obtain ⟨new, propagation, same⟩ := answers.abnormal (Standing.abnormal_of_unchecked unchecked') here'
  rw [same] at member
  rcases List.mem_or_eq_of_mem_set member with old | same
  · exact after.good good other old
  · subst same
    refine Standing.propagatedResult_of_unchecked ?_
    unfold Standing.isUnchecked
    rw [propagation]
    exact unchecked'

theorem Pass.sound {now : Instant} {start : Group} {indices : List Nat} {branch last : Branch}
    {world after : World} {status final : Checking}
    (pass : Pass (fun child world answer next after =>
      Tree.Sweeps now child world answer next after ∧ soundCourse child world answer next after)
      indices branch world status (.ok final) last after)
    (sound : PassSound start branch world) : PassSound start last after := by
  refine pass.carries (p := fun branch world _ => PassSound start branch world) ?_ ?_ sound
  · intro index branch world status child next there sound here unfinished visit
    exact sound.passes here visit.1.grows
      (visit.2 .ok unfinished (sound.sound child (List.mem_of_getElem? here)))
  · intro index branch world status child next there failure again answered sound here unfinished
      visit answers
    exact sound.fails here visit.1.grows
      (visit.2 (.failed failure) unfinished (sound.sound child (List.mem_of_getElem? here))) answers

/-! ### The result of a group -/

theorem foldl_min_le (results : List BuildResult) (start : BuildResult) :
    (results.foldl min start).rank ≤ start.rank ∧
      ∀ result ∈ results, (results.foldl min start).rank ≤ result.rank := by
  induction results generalizing start with
  | nil => simp
  | cons result rest ih =>
      obtain ⟨below, least⟩ := ih (min start result)
      have chosen : (min start result).rank ≤ start.rank ∧ (min start result).rank ≤ result.rank := by
        change (if start.rank ≤ result.rank then start else result).rank ≤ start.rank ∧
          (if start.rank ≤ result.rank then start else result).rank ≤ result.rank
        split <;> omega
      refine ⟨Nat.le_trans below chosen.1, fun other member => ?_⟩
      rcases List.mem_cons.mp member with same | deeper
      · subst same
        exact Nat.le_trans below chosen.2
      · exact least other deeper

/-- A group comes to what one of the children in reach looks like. -/
theorem exists_of_aggregate {branch : Branch} {count : Nat}
    (unknown : branch.1.standing.result = .unknown) (reached : branch.2.take count ≠ []) :
    ∃ child ∈ branch.2.take count,
      branch.aggregate count = child.standing.propagatedResult := by
  have chosen : Std.MinEqOr BuildResult := ⟨fun left right => by
    change (if left ≤ right then left else right) = left ∨
      (if left ≤ right then left else right) = right
    split
    · exact .inl rfl
    · exact .inr rfl⟩
  have nothing : ∀ result : BuildResult, min .unknown result = result := by
    intro result
    cases result <;> rfl
  unfold aggregate
  rw [show branch.group.standing.result = .unknown from unknown]
  cases inside : branch.children.take count with
  | nil => exact absurd inside reached
  | cons child rest =>
      rw [List.map_cons, List.foldl_cons, nothing]
      have among : (rest.map fun child => child.standing.propagatedResult).foldl min
          child.standing.propagatedResult ∈
            (child :: rest).map fun child => child.standing.propagatedResult :=
        List.min?_mem List.min?_cons'
      obtain ⟨least, member, same⟩ := List.mem_map.mp among
      exact ⟨least, inside ▸ member, same.symm⟩

theorem eq_failure_of_le {result : BuildResult} (least : result.rank ≤ 0) :
    result = .failure := by
  cases result with
  | failure => rfl
  | _ => exact absurd least (by decide)

/-- A failure among the children in reach is not hidden by the others. -/
theorem aggregate_eq_failure {branch : Branch} {count : Nat} {child : Tree}
    (member : child ∈ branch.2.take count) (failed : child.standing.propagatedResult = .failure) :
    branch.aggregate count = .failure := by
  have least := (foldl_min_le ((branch.2.take count).map fun child =>
    child.standing.propagatedResult) branch.1.standing.result).2 _ (List.mem_map_of_mem member)
  rw [failed] at least
  exact eq_failure_of_le least

/-- A group does not fail as long as no child in reach looks like a failure. -/
theorem fine_of_aggregate {branch : Branch} {count : Nat}
    (fine : (branch.aggregate count).isFailure = false) {child : Tree}
    (member : child ∈ branch.2.take count) : child.standing.propagatedResult ≠ .failure := by
  intro failed
  rw [aggregate_eq_failure member failed] at fine
  cases fine

/-- A group that fails has a child in reach that looks like a failure. -/
theorem exists_of_isFailure {branch : Branch} {count : Nat}
    (unknown : branch.1.standing.result = .unknown)
    (failure : (branch.aggregate count).isFailure) :
    ∃ child ∈ branch.2.take count, child.standing.propagatedResult = .failure := by
  by_cases reached : branch.2.take count = []
  · have nothing : branch.aggregate count = .unknown := by
      change ((branch.2.take count).map _).foldl min branch.1.standing.result = _
      rw [reached, unknown]
      rfl
    rw [nothing] at failure
    cases failure
  · obtain ⟨child, member, same⟩ := exists_of_aggregate unknown reached
    rw [same] at failure
    refine ⟨child, member, ?_⟩
    rcases child.standing.propagatedResult_range with good | unstable | failed
    · rw [good] at failure
      cases failure
    · rw [unstable] at failure
      cases failure
    · exact failed

/-- A group that fails comes to exactly that. -/
theorem aggregate_of_isFailure {branch : Branch} {count : Nat}
    (unknown : branch.1.standing.result = .unknown)
    (failure : (branch.aggregate count).isFailure) : branch.aggregate count = .failure := by
  obtain ⟨child, member, failed⟩ := exists_of_isFailure unknown failure
  exact aggregate_eq_failure member failed

/-- A group with children in reach comes to something. -/
theorem aggregate_ne_unknown {branch : Branch} {count : Nat}
    (unknown : branch.1.standing.result = .unknown) (reached : branch.2.take count ≠ []) :
    branch.aggregate count ≠ .unknown := by
  obtain ⟨child, -, same⟩ := exists_of_aggregate unknown reached
  rw [same]
  rcases child.standing.propagatedResult_range with result | result | result <;> rw [result] <;>
    exact BuildResult.noConfusion

theorem take_span_ne_nil {branch : Branch} (inhabited : branch.2 ≠ []) :
    branch.2.take branch.span ≠ [] := by
  intro nothing
  have reached := congrArg List.length nothing
  have some' := List.length_pos_iff.mpr inhabited
  have span := span_pos inhabited
  rw [List.length_take, List.length_nil] at reached
  omega

/-- A group comes to a success only if all children in reach look like one. -/
theorem aggregate_good {branch : Branch} {count : Nat} (good : (branch.aggregate count).IsGood)
    {child : Tree} (member : child ∈ branch.children.take count) :
    child.standing.propagatedResult = .success := by
  have least := (foldl_min_le ((branch.children.take count).map
    fun child => child.standing.propagatedResult) branch.group.standing.result).2 _
    (List.mem_map_of_mem member)
  have rank : 3 ≤ (branch.aggregate count).rank := by
    rcases good with good | good <;> rw [good] <;> decide
  have high : 3 ≤ child.standing.propagatedResult.rank := Nat.le_trans rank least
  unfold Standing.propagatedResult at high ⊢
  split
  · rfl
  · next bad =>
      rw [if_neg bad] at high
      split at high <;> exact absurd high (by decide)

/-- A group of children that all look like a success comes to a success. -/
theorem aggregate_success {branch : Branch} {count : Nat}
    (unknown : branch.1.standing.result = .unknown) (some' : branch.2.take count ≠ [])
    (passed : ∀ child ∈ branch.2.take count, child.standing.propagatedResult = .success) :
    branch.aggregate count = .success := by
  have results : ∀ (trees : List Tree) (start : BuildResult),
      start = .unknown ∧ trees ≠ [] ∨ start = .success →
      (∀ child ∈ trees, child.standing.propagatedResult = .success) →
      (trees.map fun child => child.standing.propagatedResult).foldl min start = .success := by
    intro trees
    induction trees with
    | nil =>
        intro start begins _
        exact begins.resolve_left fun none => none.2 rfl
    | cons child rest ih =>
        intro start begins passed
        rw [List.map_cons, List.foldl_cons, passed child List.mem_cons_self]
        apply ih _ (.inr _) fun other member => passed other (List.mem_cons_of_mem _ member)
        rcases begins with ⟨rfl, -⟩ | rfl <;> rfl
  exact results _ _ (.inl ⟨unknown, some'⟩) passed

theorem span_all {branch : Branch}
    (last : branch.group.isSerial → branch.children.length ≤ branch.group.cursor + 1) :
    branch.span = branch.children.length := by
  unfold span
  split
  · next serial => exact Nat.min_eq_right (last serial)
  · rfl

theorem result_closed (branch : Branch) (status : Checking) :
    (branch.closed status).1.standing.result = branch.1.standing.result := by
  unfold closed
  split <;> rfl

theorem propagation_closed (branch : Branch) (status : Checking) :
    (branch.closed status).1.standing.propagation = branch.1.standing.propagation := by
  unfold closed
  split <;> rfl

theorem settled_unknown {branch : Branch} {status : Checking}
    (settled : isPending status branch = false) : branch.1.standing.result = .unknown :=
  (settled_iff.mp settled).2

end Branch

/-- A group that takes over what its children came to stays sound. -/
theorem Branch.PassSound.closes {now : Instant} {group : Group} {children : List Tree}
    {passed last : Branch} {after : World} {status : Checking} {answer : Except Halt Unit}
    (kept : PassSound (group.begun now) passed after)
    (closes : Closes now (passed.closed status) status answer last) (answered : Answered answer) :
    Tree.KeepsSound (.branch group children) answer (.branch last.1 last.2) after := by
  obtain ⟨time, begun⟩ := Group.standing_begun group now
  have same : (passed.closed status).1.standing.result = (group.begun now).standing.result :=
    (result_closed passed status).trans kept.result
  have result : (passed.closed status).1.standing.result = group.standing.result := by
    rw [same, begun]
  have propagation : (passed.closed status).1.standing.propagation = group.standing.propagation := by
    rw [propagation_closed, kept.propagation, begun]
  -- A group that has a result already is pending, so it never comes to another one.
  have unsettled : ∀ {p : Prop}, isPending status (passed.closed status) = false →
      group.standing.result ≠ .unknown → p := fun settled known =>
    absurd (result.symm.trans (settled_unknown settled)) known
  cases closes with
  | pending =>
      refine ⟨Tree.sound_branch.mpr ⟨?_, kept.sound⟩, propagation,
        fun _ => ⟨rfl, result⟩, fun _ failed => by cases failed⟩
      intro good
      exact kept.good (same ▸ good)
  | overdue => cases answered
  | fails settled failure =>
      refine ⟨Tree.sound_branch.mpr ⟨?_, kept.sound⟩, propagation,
        unsettled settled, fun _ _ => failure⟩
      intro good
      cases failure.symm.trans (BuildResult.IsGood.fine good)
  | moves settled =>
      refine ⟨Tree.sound_branch.mpr ⟨?_, kept.sound⟩, ?_,
        unsettled settled, fun _ failed => by cases failed⟩
      · intro good
        rcases good with good | good <;> cases good
      · exact (congrArg Standing.propagation (Group.standing_setCursor _ _)).trans propagation
  | ends settled fine last =>
      refine ⟨Tree.sound_branch.mpr ⟨?_, kept.sound⟩, ?_,
        unsettled settled, fun _ failed => by cases failed⟩
      · intro good child member
        have good : ((passed.closed status).summed.1.setCursor
          ((passed.closed status).summed.group.cursor + 1)).standing.result.IsGood := good
        rw [Group.standing_setCursor] at good
        refine aggregate_good good ?_
        rw [span_all last, List.take_length]
        exact member
      · exact (congrArg Standing.propagation (Group.standing_setCursor _ _)).trans propagation

theorem Branch.Sweeps.sound {now : Instant} {group group' : Group} {children children' : List Tree}
    {world after : World} {answer : Except Halt Unit}
    (sweeps : Branch.Sweeps now (fun child world answer next after =>
        Tree.Sweeps now child world answer next after ∧ soundCourse child world answer next after)
      (group, children) world answer (group', children') after) (answered : Answered answer)
    (sound : (Tree.branch group children).Sound world.runner) :
    Tree.KeepsSound (.branch group children) answer (.branch group' children') after := by
  cases sweeps with
  | halts pass => cases answered; exact absurd rfl (pass.hard _)
  | closes pass closes =>
      have kept : PassSound (group.begun now) _ after := pass.sound (.start sound now)
      exact kept.closes closes answered

/-- Every sweep keeps results what they stand for. -/
theorem Tree.Sweeps.sound {now : Instant} {tree next : Tree} {world after : World}
    {answer : Except Halt Unit} (sweeps : Tree.Sweeps now tree world answer next after)
    (answered : Answered answer) (unfinished : tree.standing.isFinished = false)
    (sound : tree.Sound world.runner) : KeepsSound tree answer next after := by
  refine sweeps.rule (p := Branch.soundCourse) ?_ ?_ answered unfinished sound
  · intro leaf world answer leaf' after follows answered unfinished sound
    have leafSound := sound_task.mp sound
    refine ⟨sound_task.mpr (follows.sound answered leafSound unfinished),
      follows.propagation, fun known => absurd (leafSound.unknown unfinished) known, ?_⟩
    exact fun failure failed => follows.failed failed
  · intro group children world answer group' children' after sweeps answered _ sound
    exact sweeps.sound answered sound

end BuildFlow
