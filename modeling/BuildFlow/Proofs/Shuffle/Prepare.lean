import BuildFlow.Proofs.Flow.Prepare
import BuildFlow.Proofs.Shuffle.Tree
/-!
The pass before the first sweep in two runs. All jobs exist and are idle, so both passes
come to their ends, and they leave shuffled trees behind.
-/
namespace BuildFlow

/-- Looking jobs up changes nothing that a run sees of the jobs that exist. -/
theorem World.Same.agree {world after : World} (same : world.Same after) {names : List String}
    (has : world.Has names) : World.Agree names world after := by
  refine ⟨same.grows.tick, fun name named => ?_⟩
  obtain ⟨job, found⟩ := Option.isSome_iff_exists.mp (has name named)
  obtain ⟨next, found', grows⟩ := same.grows.runner.job? found
  rw [Runner.plain?_of_job? found, Runner.plain?_of_job? found']
  have builds := same.builds name
  unfold Runner.buildsOf at builds
  rw [(Runner.job?_eq_some.mp found).1, (Runner.job?_eq_some.mp found').1] at builds
  change next.builds = job.builds at builds
  have present : next.present = job.present :=
    (Runner.job?_eq_some.mp found').2.trans (Runner.job?_eq_some.mp found).2.symm
  unfold Job.plain
  rw [grows.plan, present, builds]

/-- Invocations that are ready differ in ids if they did so as declared. -/
theorem Task.Ready.plain {task : Task} {runner : Runner} (ready : task.Ready runner)
    (found : (runner.job? task.name).isSome) :
    task.plain = { task.blank.plain.prepare false with resolved := true } ∧ task.build = none := by
  obtain ⟨⟨resolved, oldBuild, same⟩, known⟩ := ready
  have here : resolved = true := (congrArg Task.resolved same).symm.trans (known.mpr found)
  subst here
  exact ⟨congrArg Task.plain same, congrArg Task.build same⟩

namespace Tree

/-- Trees that are ready are shuffled if they were so as declared. -/
theorem shuffled_of_ready {runner runner' : Runner} {tree tree' : Tree}
    (ready : tree.Every (Ready runner)) (ready' : tree'.Every (Ready runner'))
    (has : ∀ name ∈ tree.names, (runner.job? name).isSome)
    (has' : ∀ name ∈ tree'.names, (runner'.job? name).isSome)
    (shuffled : tree.blank.Shuffled tree'.blank) : tree.Shuffled tree' := by
  induction tree using childrenInduction generalizing tree' with
  | leaf leaf =>
      cases tree' with
      | branch group' children' => cases shuffled
      | task leaf' =>
          cases shuffled with
          | task same =>
              obtain ⟨here, unbuilt⟩ := Task.Ready.plain ready.self (has _ (List.mem_singleton_self _))
              obtain ⟨there, -⟩ := Task.Ready.plain ready'.self (has' _ (List.mem_singleton_self _))
              refine .task ?_ fun ref built => ?_
              · rw [here, there, same]
              · cases unbuilt.symm.trans built
  | branch group children ih =>
      cases tree' with
      | task leaf' => cases shuffled
      | branch group' children' =>
          obtain ⟨here, below⟩ := every_branch.mp ready
          obtain ⟨here', below'⟩ := every_branch.mp ready'
          simp only [blank, blanks_eq] at shuffled
          cases shuffled with
          | @branch _ _ _ middle _ same each order kept =>
              -- The declared children in between are those of some order of the children.
              have declared : List.Forall₂ (fun declared child => declared = child.blank)
                  (children'.map blank) children' :=
                List.forall₂_map_left_iff.mpr (List.forall₂_same.mpr fun _ _ => rfl)
              obtain ⟨image, along, order', kept'⟩ : ∃ image,
                  List.Forall₂ (fun declared child => declared = child.blank) middle image ∧
                    image.Perm children' ∧ (group.isSerial → image = children') := by
                by_cases serial : group.isSerial
                · rw [kept ((Group.isSerial_blank group).trans serial)]
                  exact ⟨children', declared, .refl _, fun _ => rfl⟩
                · obtain ⟨image, along, order'⟩ := List.perm_comp_forall₂ order declared
                  exact ⟨image, along, order', fun is => absurd is serial⟩
              have middles := forall₂_map_eq (f := id) along fun _ _ same => same.symm
              rw [List.map_id] at middles
              subst middles
              rw [List.forall₂_map_left_iff, List.forall₂_map_right_iff] at each
              refine .branch ?_ (forall₂_of_mem each fun child member other member' shuffled => ?_)
                order' kept'
              · rw [here, here', Group.plain_prepare, Group.plain_prepare, same]
              · have inside := order'.subset member'
                exact ih child member (below child member) (below' other inside)
                  (fun name named => has name (mem_names_branch.mpr ⟨child, member, named⟩))
                  (fun name named => has' name (mem_names_branch.mpr ⟨other, inside, named⟩)) shuffled

/-- Where all jobs exist and are idle, every node gets ready, unless the status of a build
cannot be told. -/
theorem Prepared.readies {requireIdle : Bool} {tree next : Tree} {world after : World}
    {answer : Except Halt Unit} (prepared : tree.Prepared requireIdle world answer next after)
    (has : world.Has tree.names)
    (idle : ∀ name ∈ tree.names, ∀ job, world.runner.job? name = some job →
      (job.progress world.runner.tick).isIdle) :
    answer = .ok () ∧ next.Every (Ready after.runner) ∨ answer = .error (.broken .ticks) := by
  obtain ⟨same, layout, ends⟩ := prepared
  cases answer with
  | ok => exact .inl ⟨rfl, ends⟩
  | error halt =>
      obtain ⟨leaf, member, refused⟩ := ends
      have named : leaf.name ∈ tree.names := List.mem_map_of_mem member
      have found := has.grows same.grows.runner leaf.name named
      cases refused with
      | missing missing => rw [missing] at found; cases found
      | unknown missing => rw [missing] at found; cases found
      | overrun => exact .inr rfl
      | @busy _ job found busy =>
          -- The job was idle before, and looking jobs up does not start any build.
          obtain ⟨old, held⟩ := Option.isSome_iff_exists.mp (has leaf.name named)
          have resting := idle leaf.name named old held
          rw [← (same.agree has).progress named held found, busy] at resting
          cases resting

end Tree

end BuildFlow
