import BuildFlow.Proofs.Kill.Settlement
import BuildFlow.Proofs.Tree.Honest
/-!
What becomes of work that a kill prevents. An invocation that has yet to begin is taken
for finished by the first round of the kill loop, and as every node above it reports all
failures, none of them comes to anything but a failure. A kill of all builds takes the
result from the latest build of the job instead, whoever started it.
-/
namespace BuildFlow

open Act

namespace Tree

/-! ## Work that was lost -/

mutual

/-- The invocations that report everything, below groups that all do. -/
def normalTasks : Tree → List Task
  | .task leaf => if leaf.standing.propagation = .normal then [leaf] else []
  | .branch group children =>
      if group.standing.propagation = .normal then normalOf children else []

def normalOf : List Tree → List Task
  | [] => []
  | child :: rest => child.normalTasks ++ normalOf rest

end

theorem mem_normalOf {children : List Tree} {leaf : Task} :
    leaf ∈ normalOf children ↔ ∃ child ∈ children, leaf ∈ child.normalTasks := by
  induction children with
  | nil => simp [normalOf]
  | cons child rest ih => simp [normalOf, ih]

theorem mem_normalTasks_branch {group : Group} {children : List Tree} {leaf : Task} :
    leaf ∈ (Tree.branch group children).normalTasks ↔
      group.standing.propagation = .normal ∧ ∃ child ∈ children, leaf ∈ child.normalTasks := by
  have shape : (Tree.branch group children).normalTasks =
      if group.standing.propagation = .normal then normalOf children else [] := rfl
  rw [shape, ← mem_normalOf]
  split <;> simp [*]

theorem mem_normalTasks_task {leaf other : Task} :
    other ∈ (Tree.task leaf).normalTasks ↔ other = leaf ∧ leaf.standing.propagation = .normal := by
  unfold normalTasks
  split <;> simp [*]

theorem normal_of_mem {tree : Tree} {leaf : Task} (member : leaf ∈ tree.normalTasks) :
    tree.standing.propagation = .normal := by
  cases tree with
  | task other => exact (mem_normalTasks_task.mp member).2
  | branch group children => exact (mem_normalTasks_branch.mp member).1

/-- An honest node with work below it that has yet to begin can only have failed. -/
theorem Honest.lost {tree : Tree} (honest : tree.Honest) {leaf : Task}
    (member : leaf ∈ tree.normalTasks) (unfinished : leaf.standing.isFinished = false)
    (known : tree.standing.result ≠ .unknown) : tree.standing.result = .failure := by
  induction tree using childrenInduction with
  | leaf other =>
      obtain ⟨rfl, -⟩ := mem_normalTasks_task.mp member
      cases unfinished.symm.trans (honest_task.mp honest known)
  | branch group children ih =>
      obtain ⟨⟨-, fares⟩, below⟩ := honest_branch.mp honest
      obtain ⟨-, child, among, inside⟩ := mem_normalTasks_branch.mp member
      refine Decidable.byContradiction fun fine => ?_
      have fine' : child.standing.result.IsFine := Decidable.byContradiction fun bad =>
        fares known fine child among
          (Standing.propagatedResult_eq_failure_iff.mpr ⟨normal_of_mem inside, bad⟩)
      have failed := ih child among (below child among) inside fine'.known
      rw [failed] at fine'
      revert fine'
      decide

/-- An honest node with such work below it has a result once it is finished. -/
theorem Honest.known {tree : Tree} (honest : tree.Honest) {leaf : Task}
    (member : leaf ∈ tree.normalTasks) (unfinished : leaf.standing.isFinished = false)
    (finished : tree.standing.isFinished) : tree.standing.result ≠ .unknown := by
  cases tree with
  | task other =>
      obtain ⟨rfl, -⟩ := mem_normalTasks_task.mp member
      cases unfinished.symm.trans finished
  | branch group children =>
      obtain ⟨⟨finishes, -⟩, -⟩ := honest_branch.mp honest
      obtain ⟨-, child, among, -⟩ := mem_normalTasks_branch.mp member
      exact finishes finished (List.ne_nil_of_mem among)

/-- The node has failed, or cannot but fail once it is finished. -/
inductive Doomed : Tree → Prop
  | lost {leaf : Task} (finished : leaf.standing.isFinished)
      (failure : leaf.standing.propagatedResult = .failure) : Doomed (.task leaf)
  | failed {group : Group} {children : List Tree} (normal : group.standing.propagation = .normal)
      (failure : group.standing.result = .failure) : Doomed (.branch group children)
  | under {group : Group} {children : List Tree} (normal : group.standing.propagation = .normal)
      (unfinished : group.standing.isFinished = false) {child : Tree} (member : child ∈ children)
      (doomed : Doomed child) : Doomed (.branch group children)

theorem Doomed.fails {tree : Tree} (doomed : tree.Doomed) (finished : tree.standing.isFinished) :
    tree.standing.propagatedResult = .failure := by
  cases doomed with
  | lost _ failure => exact failure
  | @failed group children normal failure =>
      refine Standing.propagatedResult_eq_failure_iff.mpr ⟨normal, ?_⟩
      change ¬ group.standing.result.IsFine
      rw [failure]
      decide
  | under _ unfinished => cases unfinished.symm.trans finished

end Tree

/-! ## Passes -/

namespace Group

variable {group : Group} {children : List Tree}

theorem propagation_quit : (group.quit children).standing.propagation =
    group.standing.propagation := by
  obtain ⟨_, _, shape⟩ := group.quit_shape children
  rw [shape]

/-- A group that has failed stays so. -/
theorem quit_of_failure (failure : group.standing.result = .failure) :
    (group.quit children).standing.result = .failure := by
  unfold quit settle
  split
  · exact failure
  dsimp only
  split
  · refine Branch.eq_failure_of_le (Nat.le_trans (Branch.foldl_min_le _ _).1 ?_)
    exact Nat.le_of_eq (congrArg BuildResult.rank failure)
  · exact failure

/-- A group fails as soon as it is finished, if a child of it does. -/
theorem quit_of_child (unfinished : group.standing.isFinished = false) {child : Tree}
    (member : child ∈ children)
    (fails : child.standing.isFinished → child.standing.propagatedResult = .failure)
    (finished : (group.quit children).standing.isFinished) :
    (group.quit children).standing.result = .failure := by
  revert finished
  unfold quit settle
  rw [if_neg (Bool.eq_false_iff.mp unfinished)]
  dsimp only
  split
  · next all =>
      intro _
      have settled := (foldl_min_finished _).mp all _ (List.mem_map_of_mem member)
      refine Branch.aggregate_eq_failure ?_ (fails (decide_eq_true settled))
      rw [List.take_of_length_le (Nat.le_refl _)]
      exact member
  · next some' => exact fun finished => absurd (of_decide_eq_true finished) some'

end Group

namespace Tree

/-- A group with a child that is doomed is itself. -/
theorem Doomed.quit {group : Group} {children : List Tree}
    (normal : group.standing.propagation = .normal) (unfinished : group.standing.isFinished = false)
    {child : Tree} (member : child ∈ children) (doomed : child.Doomed) :
    (Tree.branch (group.quit children) children).Doomed := by
  cases finished : (group.quit children).standing.isFinished with
  | true =>
      exact .failed (Group.propagation_quit.trans normal)
        (Group.quit_of_child unfinished member doomed.fails finished)
  | false => exact .under (Group.propagation_quit.trans normal) finished member doomed

end Tree

theorem Task.Quits.same {all : Bool} {task next : Task} {before after : Scene}
    (quits : task.Quits all before next after) (finished : task.standing.isFinished) :
    next = task := by
  cases quits with
  | settled => rfl
  | missing unfinished => cases unfinished.symm.trans finished
  | silenced unfinished => cases unfinished.symm.trans finished
  | waits => rfl
  | unstarted unfinished => cases unfinished.symm.trans finished
  | ended unfinished => cases unfinished.symm.trans finished
  | told => rfl
  | tells unfinished => cases unfinished.symm.trans finished

/-- No pass saves a node that is doomed. -/
theorem Tree.Quits.doomed {all : Bool} {tree next : Tree} {before after : Scene}
    (quits : Tree.Quits all tree before next after) (doomed : tree.Doomed) : next.Doomed := by
  refine quits.rule (p := fun tree _ next _ => tree.Doomed → next.Doomed) ?_ (fun _ _ => id) ?_
    doomed
  · intro leaf before leaf' after quits doomed
    cases doomed with
    | lost finished failure => exact quits.same finished ▸ .lost finished failure
  · intro group children before children' after _ chain doomed
    cases doomed with
    | failed normal failure =>
        exact .failed (Group.propagation_quit.trans normal) (Group.quit_of_failure failure)
    | under normal unfinished member doomed =>
        obtain ⟨child', among, ⟨rfl, -⟩ | ⟨_, _, visit, -, -⟩⟩ :=
          chain.reached (fun visit => visit.1.onward) member
        · exact .quit normal unfinished among doomed
        · exact .quit normal unfinished among (visit.2 doomed)

/-! ## The first pass -/

namespace Runner

/-- The result of the latest build of a job. -/
def latest (runner : Runner) (tick : Nat) (name : String) : BuildResult :=
  ((runner.buildsOf name).getLast?.map fun build => build.result tick).getD .unknown

theorem latest_of_get? {runner : Runner} {name : String} {job : Job}
    (listed : runner.jobs.get? name = some job) (tick : Nat) :
    runner.latest tick name = (job.status tick).result := by
  rw [latest, buildsOf_of_get? listed]
  rfl

theorem Halts.latest {before after : Runner} (halts : before.Halts after) {name : String}
    (fine : (after.latest after.tick name).IsFine) : (before.latest before.tick name).IsFine := by
  cases listed : after.jobs.get? name with
  | none =>
      rw [Runner.latest, buildsOf, listed] at fine
      rcases fine with fine | fine | fine <;> cases fine
  | some next =>
      obtain ⟨job, listed', halts'⟩ := halts.listed listed
      rw [latest_of_get? listed, halts.tick] at fine
      rw [latest_of_get? listed']
      exact halts'.fine fine

end Runner

namespace Task

/-- An invocation that has yet to begin its attempt. A pass over it finds no result that
could stand for it. -/
structure Idles (all : Bool) (runner : Runner) (task : Task) : Prop where
  unfinished : task.standing.isFinished = false
  uninvoked : task.standing.isInvoked = false
  unknown : all → task.resolved → ¬ (runner.latest runner.tick task.name).IsFine

theorem Idles.halts {all : Bool} {before after : Runner} {task : Task}
    (idles : task.Idles all before) (halts : before.Halts after) : task.Idles all after where
  unfinished := idles.unfinished
  uninvoked := idles.uninvoked
  unknown all resolved fine := idles.unknown all resolved (halts.latest fine)

/-- An invocation that has yet to begin is lost. -/
theorem Quits.loses {all : Bool} {task next : Task} {before after : Scene}
    (quits : task.Quits all before next after) (idles : task.Idles all before.runner)
    (hushed : before.Hushed) (honest : (Tree.task task).Honest)
    (normal : task.standing.propagation = .normal) : (Tree.task next).Doomed := by
  have unknown : task.standing.result = .unknown := Decidable.not_not.mp fun known =>
    Bool.false_ne_true (idles.unfinished.symm.trans (Tree.honest_task.mp honest known))
  have dropped : (Tree.task task.dropped).Doomed := by
    refine .lost rfl (Standing.propagatedResult_eq_failure_iff.mpr ⟨normal, ?_⟩)
    change ¬ task.standing.result.IsFine
    rw [unknown]
    decide
  cases quits with
  | settled finished => cases idles.unfinished.symm.trans finished
  | missing => exact dropped
  | silenced _ resolved asked silences found =>
      refine .lost rfl (Standing.propagatedResult_eq_failure_iff.mpr ⟨normal, fun fine => ?_⟩)
      refine idles.unknown asked resolved (silences.halts.latest ?_)
      rw [Runner.latest_of_get? (Runner.job?_eq_some.mp found).1]
      exact fine
  | waits _ resolved _ silences found busy =>
      have silent := silences.onward.hushed hushed _ (silences.stopped resolved)
      cases ((Runner.silent_iff (Runner.job?_eq_some.mp found).1).mp silent).symm.trans busy
  | unstarted => exact dropped
  | ended _ _ _ _ invoked => cases idles.uninvoked.symm.trans invoked
  | told _ _ _ _ invoked => cases idles.uninvoked.symm.trans invoked
  | tells _ _ _ _ invoked => cases idles.uninvoked.symm.trans invoked

end Task

namespace Tree

/-- An honest node that is finished, with work below it that was lost, has failed. -/
theorem Honest.doomed {group : Group} {children : List Tree}
    (honest : (Tree.branch group children).Honest) {leaf : Task}
    (member : leaf ∈ (Tree.branch group children).normalTasks)
    (unfinished : leaf.standing.isFinished = false) (known : group.standing.result ≠ .unknown) :
    (Tree.branch group children).Doomed :=
  .failed (mem_normalTasks_branch.mp member).1 (honest.lost member unfinished known)

/-- One pass is enough to doom a tree with work that has yet to begin. -/
theorem Quits.loses {all : Bool} {tree next : Tree} {before after : Scene}
    (quits : Quits all tree before next after) (hushed : before.Hushed) (honest : tree.Honest)
    {leaf : Task} (member : leaf ∈ tree.normalTasks) (idles : leaf.Idles all before.runner) :
    next.Doomed := by
  refine quits.rule (p := fun tree before next _ => before.Hushed → tree.Honest →
    leaf ∈ tree.normalTasks → leaf.Idles all before.runner → next.Doomed) ?_ ?_ ?_
    hushed honest member idles
  · intro other before leaf' after quits hushed honest member idles
    obtain ⟨rfl, normal⟩ := mem_normalTasks_task.mp member
    exact quits.loses idles hushed honest normal
  · intro group children scene _ finished _ honest member idles
    exact honest.doomed member idles.unfinished (honest.known member idles.unfinished finished)
  · intro group children before children' after _ chain hushed honest member idles
    obtain ⟨normal, child, among, inside⟩ := mem_normalTasks_branch.mp member
    -- A group that has a result has lost already, or else one of its children comes to lose.
    by_cases unknown : group.standing.result = .unknown
    · have unfinished : group.standing.isFinished = false := Bool.not_eq_true _ ▸ fun finished =>
        honest.known member idles.unfinished finished unknown
      have below := (honest_branch.mp honest).2 child among
      obtain ⟨child', member', ⟨rfl, -, finished⟩ | ⟨_, _, visit, onward, -⟩⟩ :=
        chain.reached (fun visit => visit.1.onward) among
      · refine .quit normal unfinished member' ?_
        cases child' with
        | task other =>
            obtain ⟨rfl, -⟩ := mem_normalTasks_task.mp inside
            cases idles.unfinished.symm.trans finished
        | branch group children =>
            exact below.doomed inside idles.unfinished (below.known inside idles.unfinished finished)
      · exact .quit normal unfinished member'
          (visit.2 (onward.hushed hushed) below inside (idles.halts onward.halts))
    · have failure : group.standing.result = .failure :=
        honest.lost member idles.unfinished unknown
      exact .failed (Group.propagation_quit.trans normal) (Group.quit_of_failure failure)

end Tree

namespace Flow

/-! ## The loop -/

variable {rounds : Nat} {tree last : Tree} {host ended : Host} {answer : Except Halt Unit}

theorem Quells.doomed (quells : Quells rounds tree host answer last ended) (doomed : tree.Doomed) :
    last.Doomed := by
  induction quells with
  | breaks => exact doomed
  | settles round => exact round.quits.doomed doomed
  | goesOn round _ _ _ ih => exact ih (round.quits.doomed doomed)

/-- The first round dooms a tree with work that has yet to begin. -/
theorem Round.loses {next : Tree} {ticked after : Host} (round : Round tree host ticked next after)
    (hushed : host.scene.Hushed) (honest : tree.Honest) {leaf : Task}
    (member : leaf ∈ tree.normalTasks) (unfinished : leaf.standing.isFinished = false)
    (uninvoked : leaf.standing.isInvoked = false)
    (unknown : (Host.quickPoll.run host).2.kill.kind = .all → leaf.resolved →
      ¬ (host.runner.latest (host.runner.tick + 1) leaf.name).IsFine) : next.Doomed := by
  refine round.quits.loses (hushed_idles round.idles hushed) honest member
    ⟨unfinished, uninvoked, fun all resolved fine => ?_⟩
  refine unknown (round.asked ▸ of_decide_eq_true all) resolved ?_
  -- A tick has passed, and no build has been started or stopped.
  have tick : ticked.scene.runner.tick = host.runner.tick + 1 := round.idles.tick
  have builds := round.idles.rests.builds leaf.name
  rw [tick, Runner.latest, show ticked.scene.runner.buildsOf leaf.name = _ from builds] at fine
  exact fine

theorem Quells.settled (quells : Quells rounds tree host (.ok ()) last ended) :
    last.standing.isFinished := by
  generalize same : (Except.ok () : Except Halt Unit) = answer at quells
  induction quells with
  | breaks => cases same
  | settles _ settled => exact settled
  | goesOn _ _ _ _ ih => exact ih same

theorem Quells.blank (quells : Quells rounds tree host answer last ended) :
    last.blank = tree.blank := by
  induction quells with
  | breaks => rfl
  | settles round => exact round.quits.blank
  | goesOn round _ _ _ ih => exact ih.trans round.quits.blank

theorem honest_of_ready {runner : Runner} {tree : Tree} (ready : tree.Every (Tree.Ready runner)) :
    tree.Honest := by
  refine ready.mono fun node ready => ?_
  cases node with
  | task leaf =>
      obtain ⟨resolved, oldBuild, same⟩ := ready.1
      change leaf.standing.result ≠ .unknown → _
      rw [same]
      exact fun known => absurd rfl known
  | branch group children =>
      have same : group = group.blank.prepare false := ready
      change (group.standing.isFinished → _) ∧ _
      rw [same]
      refine ⟨fun finished => ?_, fun known => absurd rfl known⟩
      cases (group.blank.standing.isFinished_prepare false).symm.trans finished

theorem lasts_honest : Lasts fun tree _ => tree.Honest where
  rests honest _ _ _ := honest
  tours honest waits _ _ tours goesOn :=
    (tours.honest (Tree.Tours.resumes goesOn) (Standing.unfinished waits) honest).honest

/-- If a kill prevents work that every node above it reports, the flow fails. The exception
are jobs whose latest build ended well, if all builds are stopped in the first round: the
invocation is then taken for that build. -/
theorem killLoop_fails_lost {flow : Flow} {host : Host} {sleep : Duration} {rounds : Nat}
    {state : Flow × Host} (enters : flow.Enters host sleep rounds state)
    (answered : ((killLoop sleep rounds).run state).1 = .ok ()) {leaf : Task}
    (member : leaf ∈ state.1.root.normalTasks) (unfinished : leaf.standing.isFinished = false)
    (uninvoked : leaf.standing.isInvoked = false)
    (unknown : (Host.quickPoll.run state.2).2.kill.kind = .all → leaf.resolved →
      ¬ (state.2.runner.latest (state.2.runner.tick + 1) leaf.name).IsFine) :
    ((killLoop sleep rounds).run state).2.1.root.standing.result = .failure := by
  have quells := enters.quells
  generalize (killLoop sleep rounds).run state = ended at quells answered ⊢
  rw [answered] at quells
  have honest := (enters.entered lasts_honest fun _ prepared => honest_of_ready prepared.2.2).kept
  have doomed : ended.2.1.root.Doomed := by
    cases quells with
    | settles round =>
        exact round.loses enters.hushed honest member unfinished uninvoked unknown
    | goesOn round _ _ onward =>
        exact onward.doomed
          (round.loses enters.hushed honest member unfinished uninvoked unknown)
  have layout : ended.2.1.root.blank = flow.root := quells.blank.trans enters.layout
  have inhabited := inhabited_of_reach enters.reached
  have settled := quells.settled
  generalize ended.2.1.root = root at doomed layout settled ⊢
  cases doomed with
  | lost => exact absurd (layout ▸ rfl) inhabited
  | failed _ failure => exact failure
  | under _ unfinished => cases unfinished.symm.trans settled

set_option maxRecDepth 100000 in
theorem killLoop_fails_lost_halted :
    ∃ (sleep : Duration) (rounds : Nat) (state : Flow × Host),
      haltedFlow.Enters (haltedHost [⟨2, .all⟩]) sleep rounds state ∧
      ((killLoop sleep rounds).run state).2.1.root.standing.result = .failure := by
  have reached : gets (reach.run (haltedFlow, haltedHost [⟨2, .all⟩])).1 ∧
      (reach.run (haltedFlow, haltedHost [⟨2, .all⟩])).2.2.runner.Fits ∧
      ∃ leaf ∈ (reach.run (haltedFlow, haltedHost [⟨2, .all⟩])).2.1.root.normalTasks,
        leaf.standing.isFinished = false ∧ leaf.standing.isInvoked = false ∧
          ¬ ((reach.run (haltedFlow, haltedHost [⟨2, .all⟩])).2.2.runner.latest
            ((reach.run (haltedFlow, haltedHost [⟨2, .all⟩])).2.2.runner.tick + 1)
            leaf.name).IsFine := by
    decide +kernel
  have answered : (through.run (haltedFlow, haltedHost [⟨2, .all⟩])).1 = .ok () := by
    decide +kernel
  generalize ran : reach.run (haltedFlow, haltedHost [⟨2, .all⟩]) = out at reached
  obtain ⟨answer, state⟩ := out
  obtain ⟨reached, fits, leaf, member, unfinished, uninvoked, unknown⟩ := reached
  have fresh : haltedFlow.root.IsFresh := rfl
  have faithful : (haltedHost [⟨2, .all⟩]).Faithful := Host.faithful_ofHooks _ _
  have numbered : (haltedHost [⟨2, .all⟩]).runner.Numbered := Host.numbered_ofHooks _ _
  obtain ⟨sleep, rounds, enters⟩ := enters_of_gets fresh faithful numbered rfl ran reached fits
  rw [enters.through] at answered
  exact ⟨sleep, rounds, state, enters, killLoop_fails_lost enters answered member unfinished
    uninvoked fun _ _ => unknown⟩

/-- Two invocations of one job, one after the other. -/
def repeatedFlow : Flow :=
  .ofTree (.ofChildren true (.fresh 0 0 1 1 .normal) [
    .ofJob (.fresh 1 1 1 1 .normal) "build", .ofJob (.fresh 2 1 1 1 .normal) "build"])

/-- All builds are to be stopped when the first invocation has succeeded. -/
def repeatedHost : Host := .ofHooks [⟨3, .all⟩] [{ name := "build" }]

set_option maxRecDepth 100000 in
/-- The second invocation never begins, but is taken for the build of the first one. -/
theorem killLoop_hides_lost :
    ∃ (sleep : Duration) (rounds : Nat) (state : Flow × Host) (leaf : Task),
      repeatedFlow.Enters repeatedHost sleep rounds state ∧
      ((killLoop sleep rounds).run state).1 = .ok () ∧
      leaf ∈ state.1.root.normalTasks ∧ leaf.standing.isFinished = false ∧
      leaf.standing.isInvoked = false ∧
      ((killLoop sleep rounds).run state).2.1.root.standing.result = .success := by
  have reached : gets (reach.run (repeatedFlow, repeatedHost)).1 ∧
      (reach.run (repeatedFlow, repeatedHost)).2.2.runner.Fits ∧
      ∃ leaf ∈ (reach.run (repeatedFlow, repeatedHost)).2.1.root.normalTasks,
        leaf.standing.isFinished = false ∧ leaf.standing.isInvoked = false := by decide +kernel
  have left : (through.run (repeatedFlow, repeatedHost)).1 = .ok () ∧
      (through.run (repeatedFlow, repeatedHost)).2.1.root.standing.result = .success := by
    decide +kernel
  generalize ran : reach.run (repeatedFlow, repeatedHost) = out at reached
  obtain ⟨answer, state⟩ := out
  obtain ⟨reached, fits, leaf, member, unfinished, uninvoked⟩ := reached
  have fresh : repeatedFlow.root.IsFresh := rfl
  have faithful : repeatedHost.Faithful := Host.faithful_ofHooks _ _
  have numbered : repeatedHost.runner.Numbered := Host.numbered_ofHooks _ _
  obtain ⟨sleep, rounds, enters⟩ := enters_of_gets fresh faithful numbered rfl ran reached fits
  rw [enters.through] at left
  exact ⟨sleep, rounds, state, leaf, enters, left.1, member, unfinished, uninvoked, left.2⟩

end Flow

end BuildFlow
