import BuildFlow.Proofs.Kill.Once
/-!
Which builds a kill of the builds of this run gets to: those that an invocation follows
in its current attempt, as long as neither it nor a group around it is finished. All
of these are stopped in one pass, and no other build is touched.
-/
namespace BuildFlow

namespace Task

variable {task next : Task} {before after : Scene}

/-- The attempt of the invocation has begun, and follows a build of its job. -/
structure Pursues (task : Task) (ref : BuildRef) : Prop where
  resolved : task.resolved
  invoked : task.standing.isInvoked
  followed : task.build = some ref

theorem Stilled.pursues (stilled : task.Stilled next) {ref : BuildRef} (pursues : next.Pursues ref) :
    task.Pursues ref := by
  obtain ⟨_, _, _, rfl⟩ := stilled
  exact ⟨pursues.resolved, pursues.invoked, pursues.followed⟩

/-- A step touches no build but the one that is followed. -/
theorem Quits.untouched (quits : task.Quits false before next after) {name : String} {index : Nat}
    (free : task.standing.isFinished = false → ∀ ref, task.Pursues ref →
      ¬ (ref.job = name ∧ ref.index = index)) :
    (after.runner.buildsOf name)[index]? = (before.runner.buildsOf name)[index]? := by
  cases quits with
  | settled _ hushes => exact (show after = before from hushes) ▸ rfl
  | missing _ _ hushes => exact (show after = before from hushes) ▸ rfl
  | silenced _ _ asked => cases asked
  | waits _ _ asked => cases asked
  | unstarted => rfl
  | ended => rfl
  | told => rfl
  | @tells ref job build unfinished resolved _ followed invoked found held =>
      have elsewhere := free unfinished ref ⟨resolved, invoked, followed⟩
      rw [Runner.stopBuild, Runner.setBuild, Runner.buildsOf_setJob]
      split
      · next same =>
          subst same
          rw [Runner.buildsOf_of_job? found]
          exact List.getElem?_set_ne fun same => elsewhere ⟨rfl, same⟩
      · rfl

/-- The build that is followed is over after a step. -/
theorem Quits.catches (quits : task.Quits false before next after) (unsent : task.stopSent = false)
    (unfinished : task.standing.isFinished = false) {ref : BuildRef} (pursues : task.Pursues ref) :
    task.Ceased after.runner := by
  obtain ⟨resolved, invoked, followed⟩ := pursues
  cases quits with
  | settled finished => cases unfinished.symm.trans finished
  | missing _ unresolved => cases unresolved.symm.trans resolved
  | silenced _ _ asked => cases asked
  | waits _ _ asked => cases asked
  | unstarted _ _ _ unstarted =>
      rcases unstarted with unbuilt | uninvoked
      · cases unbuilt.symm.trans followed
      · cases uninvoked.symm.trans invoked
  | ended _ _ _ followed _ held idle => exact ceased_of_idle followed held idle
  | told _ _ _ _ _ _ _ sent => cases unsent.symm.trans sent
  | tells _ _ _ followed _ found held _ _ dequeue asked =>
      exact ceased_of_idle followed (build?_stopBuild found held dequeue) (Build.stop_idle asked)

end Task

namespace Tree

/-- Some invocation that a kill of the builds of this run gets to follows the build. -/
def Pursues (tree : Tree) (ref : BuildRef) : Prop := ∃ leaf ∈ tree.openTasks, leaf.Pursues ref

variable {tree next : Tree} {before after : Scene}

theorem pursues_branch {group : Group} {children : List Tree} {ref : BuildRef} :
    (Tree.branch group children).Pursues ref ↔
      group.standing.isFinished = false ∧ ∃ child ∈ children, child.Pursues ref := by
  constructor
  · rintro ⟨leaf, member, pursues⟩
    obtain ⟨unfinished, child, among, inside⟩ := mem_openTasks_branch.mp member
    exact ⟨unfinished, child, among, leaf, inside, pursues⟩
  · rintro ⟨unfinished, child, among, leaf, inside, pursues⟩
    exact ⟨leaf, mem_openTasks_branch.mpr ⟨unfinished, child, among, inside⟩, pursues⟩

theorem pursues_task {leaf : Task} {ref : BuildRef} :
    (Tree.task leaf).Pursues ref ↔ leaf.standing.isFinished = false ∧ leaf.Pursues ref := by
  unfold Pursues openTasks
  cases leaf.standing.isFinished with
  | true => simp
  | false => simp

/-- A pass touches no build but those that are pursued. -/
theorem Quits.untouched (quits : Quits false tree before next after) {name : String} {index : Nat}
    (free : ∀ ref, tree.Pursues ref → ¬ (ref.job = name ∧ ref.index = index)) :
    (after.runner.buildsOf name)[index]? = (before.runner.buildsOf name)[index]? := by
  refine quits.rule (p := fun tree before _ after =>
    (∀ ref, tree.Pursues ref → ¬ (ref.job = name ∧ ref.index = index)) →
      (after.runner.buildsOf name)[index]? = (before.runner.buildsOf name)[index]?) ?_
    (fun _ _ _ => rfl) ?_ free
  · intro leaf before leaf' after quits free
    exact quits.untouched fun unfinished ref pursues =>
      free ref (pursues_task.mpr ⟨unfinished, pursues⟩)
  · intro group children start children' after reached chain free
    have unfinished : group.standing.isFinished = false :=
      Bool.not_eq_true _ ▸ fun finished => Bool.false_ne_true (reached finished)
    refine chain.keeps (p := fun scene =>
      (scene.runner.buildsOf name)[index]? = (start.runner.buildsOf name)[index]?) ?_ rfl
    intro child member before child' there visit same
    refine (visit.2 fun ref pursues => ?_).trans same
    exact free ref (pursues_branch.mpr ⟨unfinished, child, member, pursues⟩)

/-- After a pass all builds that were pursued are over. -/
theorem Quits.catches (quits : Quits false tree before next after)
    (unsent : ∀ leaf ∈ tree.tasks, leaf.stopSent = false) {leaf : Task}
    (member : leaf ∈ tree.openTasks) {ref : BuildRef} (pursues : leaf.Pursues ref) :
    leaf.Ceased after.runner := by
  refine quits.rule (p := fun tree _ _ after => (∀ leaf ∈ tree.tasks, leaf.stopSent = false) →
    leaf ∈ tree.openTasks → leaf.Ceased after.runner) ?_ ?_ ?_ unsent member
  · intro other before leaf' after quits unsent member
    unfold openTasks at member
    split at member
    · cases member
    · next unfinished =>
        cases List.mem_singleton.mp member
        exact quits.catches (unsent leaf (List.mem_singleton_self leaf))
          (Bool.not_eq_true _ ▸ unfinished) pursues
  · intro group children scene _ finished _ member
    have finished : (Tree.branch group children).standing.isFinished := finished
    rw [openTasks_of_finished finished] at member
    cases member
  · intro group children before children' after _ chain unsent member
    obtain ⟨-, child, among, inside⟩ := mem_openTasks_branch.mp member
    obtain ⟨child', -, ⟨-, -, finished⟩ | ⟨here, there, visit, -, later⟩⟩ :=
      chain.reached (fun visit => visit.1.onward) among
    · rw [openTasks_of_finished finished] at inside
      cases inside
    · have unsent' := fun leaf inside => unsent leaf (mem_tasksOf.mpr ⟨child, among, inside⟩)
      exact (visit.2 unsent' inside).grows later.halts.grows

/-- Nothing is pursued after a pass that was not pursued before. -/
theorem Quits.pursues {all : Bool} (quits : Quits all tree before next after) {ref : BuildRef} :
    next.Pursues ref → tree.Pursues ref := by
  refine quits.rule (p := fun tree _ next _ => next.Pursues ref → tree.Pursues ref) ?_
    (fun _ _ => id) ?_
  · intro leaf before leaf' after quits pursues
    obtain ⟨unfinished, pursues⟩ := pursues_task.mp pursues
    refine pursues_task.mpr ⟨?_, quits.stilled.pursues pursues⟩
    exact Bool.not_eq_true _ ▸ fun finished =>
      Bool.false_ne_true (unfinished.symm.trans (quits.isFinished finished))
  · intro group children before children' after _ chain pursues
    obtain ⟨unfinished, child', member, pursues⟩ := pursues_branch.mp pursues
    have open' : group.standing.isFinished = false := by
      refine Bool.not_eq_true _ ▸ fun finished => ?_
      rw [Group.quit, if_pos finished] at unfinished
      exact Bool.false_ne_true (unfinished.symm.trans finished)
    obtain ⟨child, among, ⟨rfl, -⟩ | ⟨_, _, visit, -, -⟩⟩ :=
      chain.mem (fun visit => visit.1.onward) member
    · exact pursues_branch.mpr ⟨open', child', among, pursues⟩
    · exact pursues_branch.mpr ⟨open', child, among, visit.2 pursues⟩

end Tree

/-! ## Stops of single builds -/

/-- Whether all builds of a job are told to stop. -/
def Event.isStopAll : Event → Bool
  | .stopAll _ => true
  | _ => false

theorem Task.Quits.own {task next : Task} {before after : Scene}
    (quits : task.Quits false before next after) :
    ∃ new, after.stops = new ++ before.stops ∧ ∀ event ∈ new, event.isStopAll = false := by
  have none : ∃ new, before.stops = new ++ before.stops ∧
      ∀ event ∈ new, event.isStopAll = false := ⟨[], rfl, fun _ member => nomatch member⟩
  cases quits with
  | settled _ hushes => exact (show after = before from hushes) ▸ none
  | missing _ _ hushes => exact (show after = before from hushes) ▸ none
  | silenced _ _ asked => cases asked
  | waits _ _ asked => cases asked
  | unstarted => exact none
  | ended => exact none
  | told => exact none
  | tells =>
      refine ⟨[_], rfl, fun event member => ?_⟩
      rw [List.mem_singleton.mp member]
      rfl

/-- A kill of the builds of this run never tells all builds of a job to stop. -/
theorem Tree.Quits.own {tree next : Tree} {before after : Scene}
    (quits : Tree.Quits false tree before next after) :
    ∃ new, after.stops = new ++ before.stops ∧ ∀ event ∈ new, event.isStopAll = false := by
  refine quits.rule (p := fun _ before _ after =>
    ∃ new, after.stops = new ++ before.stops ∧ ∀ event ∈ new, event.isStopAll = false)
    Task.Quits.own (fun _ _ => ⟨[], rfl, fun _ member => nomatch member⟩) ?_
  intro group children start children' after _ chain
  refine chain.keeps (p := fun scene =>
    ∃ new, scene.stops = new ++ start.stops ∧ ∀ event ∈ new, event.isStopAll = false) ?_
    ⟨[], rfl, fun _ member => nomatch member⟩
  rintro child - before child' there ⟨-, later, stops', single'⟩ ⟨new, stops, single⟩
  refine ⟨later ++ new, by rw [stops', stops, List.append_assoc], fun event member => ?_⟩
  exact (List.mem_append.mp member).elim (single' event) (single event)

end BuildFlow
