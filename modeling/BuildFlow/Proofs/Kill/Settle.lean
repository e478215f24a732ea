import BuildFlow.Proofs.Kill.Pass
/-!
How far one pass gets. A kill of all builds settles the whole tree at once. A kill of
the builds of this run may leave invocations whose builds have just been told to
stop; as these are over, the next pass settles the tree.
-/
namespace BuildFlow

namespace Tree

mutual

/-- The invocations that a kill of the builds of this run gets to: neither they nor
any group around them is finished. -/
def openTasks : Tree → List Task
  | .task leaf => if leaf.standing.isFinished then [] else [leaf]
  | .branch group children => if group.standing.isFinished then [] else openOf children

def openOf : List Tree → List Task
  | [] => []
  | child :: rest => child.openTasks ++ openOf rest

end

theorem mem_openOf {children : List Tree} {leaf : Task} :
    leaf ∈ openOf children ↔ ∃ child ∈ children, leaf ∈ child.openTasks := by
  induction children with
  | nil => simp [openOf]
  | cons child rest ih => simp [openOf, ih]

theorem mem_openTasks_branch {group : Group} {children : List Tree} {leaf : Task} :
    leaf ∈ (Tree.branch group children).openTasks ↔
      group.standing.isFinished = false ∧ ∃ child ∈ children, leaf ∈ child.openTasks := by
  have shape : (Tree.branch group children).openTasks =
      if group.standing.isFinished then [] else openOf children := rfl
  rw [shape, ← mem_openOf]
  cases group.standing.isFinished <;> simp

theorem openTasks_of_finished {tree : Tree} (finished : tree.standing.isFinished) :
    tree.openTasks = [] := by
  cases tree <;> exact if_pos finished

theorem openTasks_subset {tree : Tree} {leaf : Task} (member : leaf ∈ tree.openTasks) :
    leaf ∈ tree.tasks := by
  induction tree using childrenInduction with
  | leaf other =>
      unfold openTasks at member
      split at member
      · cases member
      · exact member
  | branch group children ih =>
      obtain ⟨-, child, among, inside⟩ := mem_openTasks_branch.mp member
      exact mem_tasksOf.mpr ⟨child, among, ih child among inside⟩

end Tree

/-! ## Groups -/

theorem foldl_min_finished (statuses : List Checking) :
    statuses.foldl min .finished = .finished ↔ ∀ status ∈ statuses, status = .finished := by
  have fold : ∀ start : Checking, statuses.foldl min start = .finished ↔
      start = .finished ∧ ∀ status ∈ statuses, status = .finished := by
    induction statuses with
    | nil => simp
    | cons status rest ih =>
        intro start
        have both : min start status = .finished ↔ start = .finished ∧ status = .finished := by
          cases start <;> cases status <;> decide
        simp [ih, both, and_assoc]
  simpa using fold .finished

/-- A group is finished after a pass once all of its children are. -/
theorem Group.isFinished_quit {group : Group} {children : List Tree}
    (settled : ∀ child ∈ children, child.standing.isFinished) :
    (group.quit children).standing.isFinished := by
  unfold quit
  split
  · next finished => exact finished
  · have status : (children.map Tree.checking).foldl min .finished = .finished := by
      refine (foldl_min_finished _).mpr fun status listed => ?_
      obtain ⟨child, member, rfl⟩ := List.mem_map.mp listed
      exact of_decide_eq_true (settled child member)
    unfold settle
    dsimp only
    rw [if_pos status]
    exact decide_eq_true status

/-! ## One invocation -/

namespace Task

variable {task next : Task} {before after : Scene}

/-- The build that is followed is over. -/
def Ceased (runner : Runner) (task : Task) : Prop :=
  ∃ ref result, task.build = some ref ∧ runner.report? ref = some (result, .idle)

theorem Ceased.grows {earlier later : Runner} (ceased : task.Ceased earlier) (grows : earlier.Grows later) :
    task.Ceased later := by
  obtain ⟨ref, result, followed, reported⟩ := ceased
  exact ⟨ref, result, followed, grows.report? reported⟩

theorem ceased_of_idle {runner : Runner} {ref : BuildRef} {build : Build}
    (followed : task.build = some ref) (held : runner.build? ref = some build)
    (idle : (build.progress runner.tick).isIdle) : task.Ceased runner := by
  refine ⟨ref, build.result runner.tick, followed, ?_⟩
  rw [Runner.report?, held]
  exact congrArg some (Prod.ext rfl (Progress.eq_idle idle))

theorem Ceased.idle {runner : Runner} (ceased : task.Ceased runner) {ref : BuildRef} {build : Build}
    (followed : task.build = some ref) (held : runner.build? ref = some build) :
    (build.progress runner.tick).isIdle := by
  obtain ⟨other, result, same, reported⟩ := ceased
  cases followed.symm.trans same
  rw [Runner.report?, held] at reported
  have status : build.status runner.tick = (result, .idle) := Option.some.inj reported
  rw [Build.progress, status]
  rfl

/-- The stopped build, in the table after the stop. -/
theorem build?_stopBuild {runner : Runner} {ref : BuildRef} {job : Job} {build : Build}
    (found : runner.job? ref.job = some job) (held : job.builds[ref.index]? = some build)
    (dequeue : Bool) :
    (runner.stopBuild ref job build dequeue).build? ref =
      some (build.stop runner.tick dequeue) := by
  have listed : (runner.stopBuild ref job build dequeue).job? ref.job = some
      { job with
        stopCalls := job.stopCalls + 1
        builds := job.builds.set ref.index (build.stop runner.tick dequeue) } := by
    refine Runner.job?_eq_some.mpr ⟨?_, (Runner.job?_eq_some.mp found).2⟩
    exact (Runner.get?_setJob _ _ _ _).trans (if_pos rfl)
  refine Option.bind_eq_some_iff.mpr ⟨_, listed, ?_⟩
  exact List.getElem?_set_self (List.getElem?_eq_some_iff.mp held).1

/-- A kill of all builds leaves nothing to wait for. -/
theorem Quits.finished_all (quits : task.Quits true before next after) (hushed : before.Hushed) :
    next.standing.isFinished := by
  cases quits with
  | settled finished => exact finished
  | missing => rfl
  | silenced => rfl
  | waits _ resolved _ silences found busy =>
      -- The job is at rest, as all of its builds were stopped.
      have silent := silences.onward.hushed hushed _ (silences.stopped resolved)
      cases ((Runner.silent_iff (Runner.job?_eq_some.mp found).1).mp silent).symm.trans busy
  | unstarted _ _ own => cases own
  | ended _ _ own => cases own
  | told _ _ own => cases own
  | tells _ _ own => cases own

theorem Quits.stopped (quits : task.Quits true before next after) (resolved : task.resolved) :
    task.name ∈ after.stopped := by
  cases quits with
  | settled _ hushes => exact Silences.stopped hushes resolved
  | missing _ unresolved => cases unresolved.symm.trans resolved
  | silenced _ _ _ silences => exact silences.stopped resolved
  | waits _ _ _ silences => exact silences.stopped resolved
  | unstarted _ _ own => cases own
  | ended _ _ own => cases own
  | told _ _ own => cases own
  | tells _ _ own => cases own

/-- An invocation that is not finished has a build that was told to stop, and is over. -/
theorem Quits.ceased (quits : task.Quits false before next after) (unsent : task.stopSent = false)
    (unfinished : next.standing.isFinished = false) : next.Ceased after.runner := by
  cases quits with
  | settled finished => cases finished.symm.trans unfinished
  | missing => cases unfinished
  | silenced _ _ asked => cases asked
  | waits _ _ asked => cases asked
  | unstarted => cases unfinished
  | ended => cases unfinished
  | told _ _ _ _ _ _ _ sent => cases unsent.symm.trans sent
  | tells _ _ _ followed _ found held _ _ dequeue asked =>
      exact ceased_of_idle followed (build?_stopBuild found held dequeue) (Build.stop_idle asked)

theorem Quits.isFinished {all : Bool} (quits : task.Quits all before next after)
    (finished : task.standing.isFinished) : next.standing.isFinished := by
  cases quits with
  | settled => exact finished
  | missing => rfl
  | silenced => rfl
  | waits => exact finished
  | unstarted => rfl
  | ended => rfl
  | told => exact finished
  | tells => exact finished

theorem Quits.finished_ceased (quits : task.Quits false before next after)
    (ceased : task.Ceased before.runner) : next.standing.isFinished := by
  cases quits with
  | settled finished => exact finished
  | missing => rfl
  | silenced => rfl
  | waits _ _ asked => cases asked
  | unstarted => rfl
  | ended => rfl
  | told _ _ _ followed _ held busy => cases (ceased.idle followed held).symm.trans busy
  | tells _ _ _ followed _ found held busy =>
      have held : before.runner.build? _ = some _ := Option.bind_eq_some_iff.mpr ⟨_, found, held⟩
      cases (ceased.idle followed held).symm.trans busy

end Task

/-! ## Whole trees -/

namespace Tree

variable {tree next : Tree} {before after : Scene}

/-- A kill of all builds leaves nothing to wait for. -/
theorem Quits.finished_all (quits : Quits true tree before next after) (hushed : before.Hushed) :
    next.standing.isFinished := by
  refine quits.rule (p := fun _ before next _ => before.Hushed → next.standing.isFinished)
    Task.Quits.finished_all (fun own => Bool.noConfusion own) ?_ hushed
  intro group children before children' after _ chain hushed
  refine Group.isFinished_quit fun child' member => ?_
  obtain ⟨child, -, ⟨-, own, -⟩ | ⟨here, there, visit, earlier, -⟩⟩ :=
    chain.mem (fun visit => visit.1.onward) member
  · cases own
  · exact visit.2 (earlier.hushed hushed)

/-- A kill of all builds stops the builds of every job that was found. -/
theorem Quits.stopped (quits : Quits true tree before next after) :
    ∀ leaf ∈ tree.tasks, leaf.resolved → leaf.name ∈ after.stopped := by
  refine quits.rule (p := fun tree _ _ after =>
    ∀ leaf ∈ tree.tasks, leaf.resolved → leaf.name ∈ after.stopped) ?_
    (fun own => Bool.noConfusion own) ?_
  · intro leaf before leaf' after quits other member
    rw [List.mem_singleton.mp member]
    exact quits.stopped
  · intro group children before children' after _ chain leaf among resolved
    obtain ⟨child, member, inside⟩ := mem_tasksOf.mp among
    obtain ⟨child', -, ⟨-, own, -⟩ | ⟨here, there, visit, -, later⟩⟩ :=
      chain.reached (fun visit => visit.1.onward) member
    · cases own
    · exact later.stopped (visit.2 leaf inside resolved)

/-- What a kill of the builds of this run leaves unfinished waits for builds that are over. -/
theorem Quits.ceased (quits : Quits false tree before next after)
    (unsent : ∀ leaf ∈ tree.tasks, leaf.stopSent = false) :
    ∀ leaf ∈ next.openTasks, leaf.Ceased after.runner := by
  refine quits.rule (p := fun tree _ next after => (∀ leaf ∈ tree.tasks, leaf.stopSent = false) →
    ∀ leaf ∈ next.openTasks, leaf.Ceased after.runner) ?_ ?_ ?_ unsent
  · intro leaf before leaf' after quits unsent other member
    unfold openTasks at member
    split at member
    · cases member
    · next unfinished =>
        rw [List.mem_singleton.mp member]
        exact quits.ceased (unsent leaf (List.mem_singleton_self leaf)) (Bool.not_eq_true _ ▸ unfinished)
  · intro group children scene _ finished _ leaf member
    have finished : (Tree.branch group children).standing.isFinished := finished
    rw [openTasks_of_finished finished] at member
    cases member
  · intro group children before children' after _ chain unsent leaf member
    obtain ⟨-, child', member, inside⟩ := mem_openTasks_branch.mp member
    obtain ⟨child, among, ⟨rfl, -, finished⟩ | ⟨here, there, visit, -, later⟩⟩ :=
      chain.mem (fun visit => visit.1.onward) member
    · rw [openTasks_of_finished finished] at inside
      cases inside
    · have unsent' := fun leaf inside => unsent leaf (mem_tasksOf.mpr ⟨child, among, inside⟩)
      exact (visit.2 unsent' leaf inside).grows later.halts.grows

/-- Where all builds that are waited for are over, a pass settles the tree. -/
theorem Quits.finished_ceased (quits : Quits false tree before next after)
    (ceased : ∀ leaf ∈ tree.openTasks, leaf.Ceased before.runner) : next.standing.isFinished := by
  refine quits.rule (p := fun tree before next _ =>
    (∀ leaf ∈ tree.openTasks, leaf.Ceased before.runner) → next.standing.isFinished) ?_
    (fun _ finished _ => finished) ?_ ceased
  · intro leaf before leaf' after quits ceased
    by_cases finished : leaf.standing.isFinished
    · exact quits.isFinished finished
    · refine quits.finished_ceased (ceased leaf ?_)
      unfold openTasks
      rw [if_neg finished]
      exact List.mem_singleton_self leaf
  · intro group children before children' after reached chain ceased
    refine Group.isFinished_quit fun child' member => ?_
    obtain ⟨child, among, ⟨rfl, -, finished⟩ | ⟨here, there, visit, earlier, -⟩⟩ :=
      chain.mem (fun visit => visit.1.onward) member
    · exact finished
    · refine visit.2 fun leaf inside => (ceased leaf ?_).grows earlier.halts.grows
      have unfinished : group.standing.isFinished = false :=
        Bool.not_eq_true _ ▸ fun finished => Bool.false_ne_true (reached finished)
      exact mem_openTasks_branch.mpr ⟨unfinished, child, among, inside⟩

end Tree

end BuildFlow
