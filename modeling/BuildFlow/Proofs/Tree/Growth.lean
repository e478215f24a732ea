import BuildFlow.Proofs.Tree.Sweep
/-!
What every sweep does to the world: builds are added, those that have ended keep
their results, and the tick stays. A sweep answers its parent or breaks off for
good; on a quiet host it is never interrupted.
-/
namespace BuildFlow

/-- Visits that end with an answer to the parent. -/
inductive Answered : Except Halt Unit → Prop
  | ok : Answered (.ok ())
  | failed (failure : JobFailure) : Answered (failedBy failure)

namespace Task

theorem Follows.grows {now : Instant} {task next : Task} {world after : World}
    {answer : Except Halt Unit} (follows : Follows now task world answer next after) :
    world.Grows after := by
  cases follows with
  | missing => exact ⟨Runner.grows_lookup _ _, Runner.tick_lookup _ _⟩
  | waits finds begins => exact finds.grows.trans begins.grows
  | ends finds begins => exact finds.grows.trans begins.grows
  | strays _ grows => exact grows
  | lost finds begins => exact finds.grows.trans begins.grows

theorem Begun.every {holds : String → Job → Prop} (lasting : Runner.Lasting holds)
    {now : Instant} {task found begun : Task} {world there after : World}
    (finds : Found task world found there) (begins : Begun now found there begun after)
    (starts : ∀ name job request, holds name job →
      holds name (job.invoke world.runner.tick request))
    (every : world.runner.Every holds) : after.runner.Every holds := by
  have every' : there.runner.Every holds := by
    cases finds with
    | known => exact every
    | listed => exact every
    | looked => exact Runner.every_lookup lasting _ every
  cases begins with
  | going => exact every'
  | joins => exact every'
  | starts _ _ invoked =>
      exact Runner.every_invoke invoked every' fun job => by
        rw [finds.grows.tick]
        exact starts _ job _

end Task

namespace Branch

theorem Pass.grows {course : Course Tree} (grows : ∀ {child world answer next after},
      course child world answer next after → world.Grows after)
    {indices : List Nat} {branch last : Branch} {world after : World} {status : Checking}
    {answer : Except Halt Checking}
    (pass : Pass course indices branch world status answer last after) : world.Grows after :=
  pass.keeps (p := fun _ there => world.Grows there)
    (fun grown _ _ visit => grown.trans (grows visit)) (fun grown => grown)
    (fun grown _ _ => grown) (.refl world)

/-- A pass breaks off because a child has no room for another attempt, or with a visit. -/
theorem Pass.broken {course : Course Tree} {indices : List Nat} {branch last : Branch}
    {world after : World} {status : Checking} {halt : Halt}
    (pass : Pass course indices branch world status (.error halt) last after) :
    halt = .broken .tries ∨ (∃ child there next, course child there (.error halt) next after) ∧
      ∀ failure, halt ≠ .error (.failed failure) := by
  generalize ended : Except.error halt = answer at pass
  induction pass with
  | done => cases ended
  | skips _ _ ih => exact ih ended
  | passes _ _ _ _ ih => exact ih ended
  | fails _ _ _ _ _ ih => exact ih ended
  | breaks _ _ _ answers =>
      cases ended
      cases answers
      exact .inl rfl
  | halts _ _ visit hard =>
      cases ended
      exact .inr ⟨⟨_, _, _, visit⟩, hard⟩

/-- A pass that breaks off does not end in a failure that may be retried. -/
theorem Pass.hard {course : Course Tree} {indices : List Nat} {branch last : Branch}
    {world after : World} {status : Checking} {halt : Halt}
    (pass : Pass course indices branch world status (.error halt) last after)
    (failure : JobFailure) : halt ≠ .error (.failed failure) := by
  rcases pass.broken with rfl | ⟨-, hard⟩
  · exact Halt.noConfusion
  · exact hard failure

end Branch

namespace Tree

/-- A sweep only adds to the world, and no time passes in it. -/
theorem Sweeps.grows {now : Instant} {tree next : Tree} {world after : World}
    {answer : Except Halt Unit} (sweeps : Sweeps now tree world answer next after) :
    world.Grows after := by
  refine sweeps.rule (p := fun _ world _ _ after => world.Grows after)
    (fun follows => follows.grows) ?_
  intro group children world answer group' children' after sweeps
  cases sweeps with
  | halts pass => exact pass.grows fun visit => visit.2
  | closes pass => exact pass.grows fun visit => visit.2

/-- Something that holds of every job still does after a sweep, if it holds of a
job that has got a build in the meantime. -/
theorem Sweeps.every {holds : String → Job → Prop} (lasting : Runner.Lasting holds) {now : Instant}
    {tree next : Tree} {world after : World} {answer : Except Halt Unit}
    (sweeps : Sweeps now tree world answer next after) (answered : Answered answer)
    (starts : ∀ name job request, holds name job →
      holds name (job.invoke world.runner.tick request))
    (every : world.runner.Every holds) : after.runner.Every holds := by
  refine sweeps.rule (p := fun _ world answer _ after => Answered answer →
    (∀ name job request, holds name job → holds name (job.invoke world.runner.tick request)) →
      world.runner.Every holds → after.runner.Every holds) ?_ ?_ answered starts every
  · intro leaf world answer leaf' after follows answered starts every
    cases follows with
    | missing => exact Runner.every_lookup lasting _ every
    | waits finds begins => exact begins.every lasting finds starts every
    | ends finds begins => exact begins.every lasting finds starts every
    | strays _ _ _ strays => cases answered; cases strays
    | lost => cases answered
  · intro group children world answer group' children' after sweeps answered starts every
    cases sweeps with
    | halts pass => cases answered; exact absurd rfl (pass.hard _)
    | closes pass =>
        refine (pass.carries (p := fun _ there _ => world.Grows there ∧ there.runner.Every holds)
          ?_ ?_ ⟨.refl world, every⟩).2
        · intro index branch there status child next after kept _ _ visit
          exact ⟨kept.1.trans (visit.1.grows),
            visit.2 .ok (by rw [kept.1.tick]; exact starts) kept.2⟩
        · intro index branch there status child next after failure again answered kept _ _ visit _
          exact ⟨kept.1.trans (visit.1.grows),
            visit.2 (.failed failure) (by rw [kept.1.tick]; exact starts) kept.2⟩

end Tree

/-- What a sweep on a quiet host can end with, unless it comes to its end. -/
inductive Halt.OfSweep : Halt → Prop
  | failed (failure : JobFailure) : OfSweep (.error (.failed failure))
  | timeout (flow elapsed : String) (unfinished : List String) (propagation : Propagation) :
      OfSweep (.error (.timeout flow elapsed unfinished propagation))
  | unknown (name : String) : OfSweep (.error (.runner (.unknownJob name)))
  | broken (breakdown : Breakdown) : OfSweep (.broken breakdown)

theorem Branch.Pass.ofSweep {course : Course Tree} (visits : ∀ {child world halt next after},
      course child world (.error halt) next after → halt.OfSweep)
    {indices : List Nat} {branch last : Branch} {world after : World} {status : Checking}
    {halt : Halt} (pass : Pass course indices branch world status (.error halt) last after) :
    halt.OfSweep := by
  rcases pass.broken with rfl | ⟨⟨_, _, _, visit⟩, -⟩
  · exact .broken .tries
  · exact visits visit

theorem Tree.Sweeps.ofSweep {now : Instant} {tree next : Tree} {world after : World} {halt : Halt}
    (sweeps : Tree.Sweeps now tree world (.error halt) next after) : halt.OfSweep := by
  -- Induction on the sweep: a leaf fails in one of few ways, a group fails with a child or by
  -- itself.
  refine sweeps.rule (p := fun _ _ answer _ _ => ∀ halt, answer = .error halt → halt.OfSweep)
    ?_ ?_ halt rfl
  · intro leaf world answer leaf' after follows halt ended
    cases follows with
    | missing => cases ended; exact .failed _
    | waits => cases ended
    | ends =>
        unfold Task.ending at ended
        split at ended
        · cases ended; exact .failed _
        · cases ended
    | strays _ _ _ strays =>
        cases ended
        cases strays with
        | unknown => exact .unknown _
        | overrun => exact .broken .ticks
    | lost => cases ended; exact .broken .build
  · intro group children world answer group' children' after sweeps halt ended
    cases sweeps with
    | halts pass => cases ended; exact pass.ofSweep fun visit => visit.2 _ rfl
    | closes pass closes =>
        cases closes with
        | pending => cases ended
        | overdue => cases ended; exact .timeout _ _ _ _
        | fails => cases ended; exact .failed _
        | moves => cases ended
        | ends => cases ended

end BuildFlow
