import BuildFlow.Proofs.Kill.Heed
import BuildFlow.Proofs.Kill.Host
/-!
Sweeps where kills may be requested. Between two invocations such a sweep may be
interrupted; what it did before stays done. A tour is a sweep that leads wherever
an uninterrupted one may lead, or stops short of an invocation that had yet to
begin its attempt.
-/
namespace BuildFlow

/-- Visits after which a run goes on. -/
inductive Resumes : Except Halt Unit → Prop
  | ok : Resumes (.ok ())
  | failed (failure : JobFailure) : Resumes (failedBy failure)
  | killed (reason : String) : Resumes (.error (.error (.killed reason)))

namespace Task

/-- Where one step of following an invocation leads where a kill may be requested. -/
def Steps (now : Instant) : Course Task := fun task world answer next after =>
  Follows now task world answer next after ∨ Interrupted task world answer next after

theorem Steps.grows {now : Instant} {task next : Task} {world after : World}
    {answer : Except Halt Unit} (steps : Steps now task world answer next after) :
    world.Grows after :=
  steps.elim Follows.grows fun interrupted => interrupted.finds.grows

theorem check_steps (leaf : Task) (sweep : Sweep) (report : Bool) {host : Host}
    (faithful : host.Faithful) :
    Host.Goes host (NodeAct.visit (check sweep report) leaf host).2.2 ∧
      leaf.Steps sweep.now host.world (NodeAct.visit (check sweep report) leaf host).1
        (NodeAct.visit (check sweep report) leaf host).2.1
        (NodeAct.visit (check sweep report) leaf host).2.2.world := by
  obtain ⟨goes, follows | ⟨interrupted, -⟩⟩ := leads_checkWith .faithful leaf sweep faithful report
  · exact ⟨goes, .inl follows⟩
  · exact ⟨goes, .inr interrupted⟩

end Task

namespace Tree

open NodeAct Act

/-- Where a tour of a tree of so many levels of groups leads. -/
def ToursIn (now : Instant) : Nat → Course Tree
  | _, .task leaf, world, answer, next, after =>
      ∃ leaf', next = .task leaf' ∧ leaf.Steps now world answer leaf' after
  | 0, .branch _ _, _, _, _, _ => False
  | levels + 1, .branch group children, world, answer, next, after =>
      ∃ group' children', next = .branch group' children' ∧
        Branch.Sweeps now (ToursIn now levels) (group, children) world answer
          (group', children') after

/-- Where one tour of a tree leads. -/
def Tours (now : Instant) : Course Tree := fun tree world answer next after =>
  ∃ levels, ToursIn now levels tree world answer next after

theorem checkWithin_tours (sweep : Sweep) (levels : Nat) (report : Bool) :
    Branch.Sound .faithful (ToursIn sweep.now levels) levels (checkWithin sweep levels report) := by
  refine soundFor_checkWithin Host.Conduct.faithful.manner (ToursIn sweep.now) ?_ ?_ levels report
  · intro levels report leaf host faithful
    obtain ⟨goes, steps⟩ := Task.check_steps leaf sweep report faithful
    exact ⟨goes, by cases levels <;> exact ⟨_, rfl, steps⟩⟩
  · intro levels branch host sound low faithful
    apply (Branch.leads_checkFor sound low faithful).mono
    exact fun _ _ ⟨goes, low, sweeps⟩ => ⟨goes, low, _, _, rfl, sweeps⟩

/-- Where kills may be requested a sweep leads where a tour may lead. -/
theorem check_tours (sweep : Sweep) (report : Bool) (tree : Tree) {host : Host}
    (faithful : host.Faithful) :
    Host.Goes host (check sweep report tree host).2.2 ∧
      Tours sweep.now tree host.world (check sweep report tree host).1
        (check sweep report tree host).2.1 (check sweep report tree host).2.2.world := by
  obtain ⟨goes, tours, -⟩ :=
    checkWithin_tours sweep tree.height report tree host (Nat.le_refl _) faithful
  exact ⟨goes, tree.height, tours⟩

/-- What holds of the steps of invocations, and of a group if it holds of the
visits to its children, holds of every tour. -/
theorem Tours.rule {now : Instant} {p : Course Tree}
    (leaf : ∀ {leaf world answer leaf' after}, Task.Steps now leaf world answer leaf' after →
      p (.task leaf) world answer (.task leaf') after)
    (branch : ∀ {group children world answer group' children' after},
      Branch.Sweeps now (fun child world answer next after =>
          Tours now child world answer next after ∧ p child world answer next after)
        (group, children) world answer (group', children') after →
      p (.branch group children) world answer (.branch group' children') after)
    {tree next : Tree} {world after : World} {answer : Except Halt Unit}
    (tours : Tours now tree world answer next after) : p tree world answer next after := by
  obtain ⟨levels, tours⟩ := tours
  induction levels generalizing tree world answer next after with
  | zero =>
      cases tree with
      | task => obtain ⟨leaf', rfl, steps⟩ := tours; exact leaf steps
      | branch => exact tours.elim
  | succ levels ih =>
      cases tree with
      | task => obtain ⟨leaf', rfl, steps⟩ := tours; exact leaf steps
      | branch =>
          obtain ⟨group', children', rfl, sweeps⟩ := tours
          exact branch (sweeps.mono fun visit => ⟨⟨levels, visit⟩, ih visit⟩)

/-- A tour only adds to the world, and no time passes in it. -/
theorem Tours.grows {now : Instant} {tree next : Tree} {world after : World}
    {answer : Except Halt Unit} (tours : Tours now tree world answer next after) :
    world.Grows after := by
  refine tours.rule (p := fun _ world _ _ after => world.Grows after)
    (fun steps => steps.grows) ?_
  intro group children world answer group' children' after sweeps
  cases sweeps with
  | halts pass => exact pass.grows fun visit => visit.2
  | closes pass => exact pass.grows fun visit => visit.2

/-- A tour changes nothing that was declared. -/
theorem Tours.blank {now : Instant} {tree next : Tree} {world after : World}
    {answer : Except Halt Unit} (tours : Tours now tree world answer next after) :
    next.blank = tree.blank := by
  refine tours.rule (p := fun tree _ _ next _ => next.blank = tree.blank) ?_ ?_
  · intro leaf world answer leaf' after steps
    refine congrArg Tree.task ?_
    cases steps with
    | inl follows => exact follows.blank
    | inr interrupted => exact interrupted.finds.attempted.blank
  · intro group children world answer group' children' after sweeps
    exact Branch.blank_tree (sweeps.blank fun visit => visit.2)

end Tree

/-! ## What tours keep -/

namespace Branch

/-- What every visit after which the run goes on keeps, with the answer of the group where
the child fails, is kept by a pass, also by one that a kill interrupts. -/
theorem Pass.survives {course : Course Tree} {p : Branch → World → Prop}
    (visits : ∀ {index branch world answer child next there}, Resumes answer → p branch world →
      branch.2[index]? = some child → child.standing.isFinished = false →
      course child world answer next there → p (branch.put index next) there)
    (clears : ∀ {branch world child}, p branch world → p (branch.cleared child) world)
    (fails : ∀ {index branch world child next there failure again answered}, p branch world →
      branch.2[index]? = some child → child.standing.isFinished = false →
      course child world (failedBy failure) next there →
      Answers (branch.put index next) index next failure (.ok again) answered → p answered there)
    {indices : List Nat} {branch last : Branch} {world after : World} {status : Checking}
    {answer : Except Halt Checking}
    (pass : Pass course indices branch world status answer last after)
    (goesOn : ∀ halt, answer = .error halt → Resumes (.error halt))
    (start : p branch world) : p last after := by
  induction pass with
  | done => exact start
  | skips _ _ ih => exact ih goesOn start
  | passes here unfinished visit _ ih =>
      exact ih goesOn (clears (visits .ok start here unfinished visit))
  | fails here unfinished visit answered _ ih =>
      exact ih goesOn (fails start here unfinished visit answered)
  | breaks _ _ _ answered =>
      cases answered
      cases goesOn _ rfl
  | halts here unfinished visit _ => exact visits (goesOn _ rfl) start here unfinished visit

/-- A sweep after which the run goes on keeps of the children what a pass keeps. -/
theorem Sweeps.survives {now : Instant} {course : Course Tree} {p : Branch → World → Prop}
    {branch last : Branch} {world after : World} {answer : Except Halt Unit}
    (sweeps : Sweeps now course branch world answer last after) (resumes : Resumes answer)
    (passes : ∀ {answer last after},
      Pass course (List.range (branch.begun now).span) (branch.begun now) world .finished answer
        last after →
      (∀ halt, answer = .error halt → Resumes (.error halt)) → p last after)
    (closes : ∀ {passed status last after}, p passed after →
      Closes now (passed.closed status) status answer last → p last after) : p last after := by
  cases sweeps with
  | halts pass => exact passes pass fun halt same => by cases same; exact resumes
  | closes pass ends => exact closes (passes pass nofun) ends

end Branch

namespace Tree

/-- Something that holds of every job still does after a tour, if it holds of a job
that has got a build in the meantime. -/
theorem Tours.every {holds : String → Job → Prop} (lasting : Runner.Lasting holds)
    (starts : ∀ name job tick request, holds name job → holds name (job.invoke tick request))
    {now : Instant} {tree next : Tree} {world after : World} {answer : Except Halt Unit}
    (tours : Tours now tree world answer next after) (resumes : Resumes answer)
    (every : world.runner.Every holds) : after.runner.Every holds := by
  refine tours.rule (p := fun _ world answer _ after => Resumes answer →
    world.runner.Every holds → after.runner.Every holds) ?_ ?_ resumes every
  · intro leaf world answer leaf' after steps resumes every
    -- Looking a job up keeps what lasts, so that only a build that is started has to be looked at.
    have found : ∀ {found there}, Task.Found leaf world found there →
        there.runner.Every holds := by
      intro found there finds
      cases finds with
      | known => exact every
      | listed => exact every
      | looked => exact Runner.every_lookup lasting _ every
    rcases steps with follows | interrupted
    · have starts := fun name job => starts name job world.runner.tick
      cases follows with
      | missing => exact Runner.every_lookup lasting _ every
      | waits finds begins => exact begins.every lasting finds starts every
      | ends finds begins => exact begins.every lasting finds starts every
      | strays _ _ _ strays => cases strays <;> cases resumes
      | lost => cases resumes
    · exact found interrupted.finds
  · intro group children world answer group' children' after sweeps resumes every
    refine sweeps.survives (p := fun _ there => there.runner.Every holds) resumes ?_
      fun every _ => every
    intro answer last after pass goesOn
    refine pass.survives (p := fun _ there => there.runner.Every holds)
      (fun resumes every _ _ visit => visit.2 resumes every) (fun every => every)
      (fun every _ _ visit _ => visit.2 (.failed _) every) goesOn every

/-- What steps of invocations keep of one invocation, whatever its standing. -/
structure KeptByLeaf (now : Instant) (q : Runner → Task → Prop) : Prop where
  grows : ∀ {before after task}, Runner.Grows before after → q before task → q after task
  standing : ∀ {runner task} (standing : Standing),
    q runner task → q runner { task with standing, stopSent := false }
  finished : ∀ {runner task} (standing : Standing), q runner task → q runner { task with standing }
  steps : ∀ {task world answer next after}, Task.Steps now task world answer next after →
    Resumes answer → q world.runner task → q after.runner next

section

variable {now : Instant} {q : Runner → Task → Prop} (kept : KeptByLeaf now q)
include kept

theorem KeptByLeaf.prepared (tree : Tree) (scope : Bool) (runner : Runner)
    (all : ∀ leaf ∈ tree.tasks, q runner leaf) :
    ∀ leaf ∈ (tree.prepare scope).tasks, q runner leaf := by
  cases tree with
  | branch => exact all
  | task leaf =>
      intro other member
      rw [List.mem_singleton.mp member]
      exact kept.standing _ (all leaf (List.mem_singleton_self leaf))

theorem KeptByLeaf.ended (tree : Tree) (runner : Runner)
    (all : ∀ leaf ∈ tree.tasks, q runner leaf) : ∀ leaf ∈ tree.finish.tasks, q runner leaf := by
  cases tree with
  | branch => exact all
  | task leaf =>
      intro other member
      rw [List.mem_singleton.mp member]
      exact kept.finished _ (all leaf (List.mem_singleton_self leaf))

/-- The child that was visited keeps it if the visit does, all others as the jobs only grow. -/
theorem KeptByLeaf.put {index : Nat} {branch : Branch} {world there : World}
    {answer : Except Halt Unit} {child next : Tree}
    (all : ∀ child ∈ branch.2, ∀ leaf ∈ child.tasks, q world.runner leaf)
    (here : branch.2[index]? = some child) (tours : Tours now child world answer next there)
    (visited : (∀ leaf ∈ child.tasks, q world.runner leaf) →
      ∀ leaf ∈ next.tasks, q there.runner leaf) :
    ∀ child ∈ (branch.put index next).2, ∀ leaf ∈ child.tasks, q there.runner leaf := by
  intro other member
  rcases List.mem_or_eq_of_mem_set member with old | same
  · exact fun leaf inside => kept.grows tours.grows.runner (all other old leaf inside)
  · exact same ▸ visited (all child (List.mem_of_getElem? here))

/-- What steps of invocations keep of each invocation, tours keep of all. -/
theorem Tours.tasks {tree next : Tree} {world after : World} {answer : Except Halt Unit}
    (tours : Tours now tree world answer next after) (resumes : Resumes answer)
    (all : ∀ leaf ∈ tree.tasks, q world.runner leaf) :
    ∀ leaf ∈ next.tasks, q after.runner leaf := by
  refine tours.rule (p := fun tree world answer next after => Resumes answer →
    (∀ leaf ∈ tree.tasks, q world.runner leaf) → ∀ leaf ∈ next.tasks, q after.runner leaf)
    ?_ ?_ resumes all
  · intro leaf world answer leaf' after steps resumes all other member
    rw [List.mem_singleton.mp member]
    exact kept.steps steps resumes (all leaf (List.mem_singleton_self leaf))
  · intro group children world answer group' children' after sweeps resumes all
    -- Below a group every child keeps it through visits, endings and new attempts alike.
    have below : ∀ child ∈ children', ∀ leaf ∈ child.tasks, q after.runner leaf := by
      refine sweeps.survives (p := fun branch world =>
        ∀ child ∈ branch.2, ∀ leaf ∈ child.tasks, q world.runner leaf) resumes ?_ ?_
      · intro answer last after pass goesOn
        refine pass.survives (p := fun branch world =>
          ∀ child ∈ branch.2, ∀ leaf ∈ child.tasks, q world.runner leaf)
          (fun resumes all here _ visit => kept.put all here visit.1 (visit.2 resumes))
          (fun all => all) ?_ goesOn ?_
        · intro index branch world child next there failure again answered all here _ visit answers
          have all := kept.put all here visit.1 (visit.2 (.failed failure))
          have at' := all next (List.mem_of_getElem? (Branch.getElem?_put_self here next))
          exact answers.all all at' (kept.ended next _ at') fun other scope =>
            kept.prepared other scope _
        · exact fun child member leaf inside => all leaf (mem_tasksOf.mpr ⟨child, member, inside⟩)
      · intro passed status last after all closes child member
        exact all child (closes.children ▸ member)
    intro leaf member
    obtain ⟨child, inside, member⟩ := mem_tasksOf.mp member
    exact below child inside leaf member

end

end Tree

end BuildFlow
