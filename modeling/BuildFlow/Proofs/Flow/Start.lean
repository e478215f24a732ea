import BuildFlow.Proofs.Flow.Run
import BuildFlow.Draft.Basic
/-!
What a run starts from. A host that was just made is quiet unless its script says
otherwise, and what holds of the plans of its jobs holds of the job table. Small
trees can be written down without a draft.
-/
namespace BuildFlow

namespace Runner

theorem every_empty (p : String → Job → Prop) : ({} : Runner).Every p := by
  intro name job listed
  cases listed

theorem every_add {p : String → Job → Prop} {runner : Runner} (every : runner.Every p)
    {plan : JobPlan} (holds : p plan.name (.ofPlan plan)) : (runner.add plan).Every p :=
  every_setJob every holds

theorem every_addAll {p : String → Job → Prop} {plans : List JobPlan}
    (holds : ∀ plan ∈ plans, p plan.name (.ofPlan plan))
    {runner : Runner} (every : runner.Every p) : (plans.foldl add runner).Every p := by
  induction plans generalizing runner with
  | nil => exact every
  | cons plan rest ih =>
      exact ih (fun other member => holds other (List.mem_cons_of_mem _ member))
        (every_add every (holds plan List.mem_cons_self))

instance (runner : Runner) : Decidable runner.Fits :=
  inferInstanceAs (Decidable (∀ job ∈ runner.jobs.values, ∀ build ∈ job.builds, build.endFits))

end Runner

/-- At first a job has no build but one that someone else may have started. -/
theorem Job.eq_foreignBuild_of_mem {plan : JobPlan} {build : Build}
    (member : build ∈ (Job.ofPlan plan).builds) : build = foreignBuild := by
  unfold ofPlan at member
  dsimp only at member
  split at member
  · exact List.mem_singleton.mp member
  · cases member

/-- A plan whose builds all end with a result makes a job whose builds do. -/
theorem Job.known_ofPlan {plan : JobPlan} (fails : 0 < plan.maxFails → plan.failResult ≠ .unknown)
    (final : plan.finalResult ≠ .unknown) : (Job.ofPlan plan).Known where
  builds build member := by
    rw [eq_foreignBuild_of_mem member]
    exact ⟨BuildResult.noConfusion, nofun⟩
  fails := fails
  final := final

namespace Host

theorem quiet_start (plans : List JobPlan) (clock : Instant) (place : GraphPlace) :
    (start (plans.foldl Runner.add {}) {} clock place).Quiet where
  calm := rfl
  unsignalled := nofun
  unhooked := by
    have added : ∀ (plans : List JobPlan) (runner : Runner), runner.hooks = [] →
        (plans.foldl Runner.add runner).hooks = [] := by
      intro plans
      induction plans with
      | nil => exact fun _ unhooked => unhooked
      | cons plan rest ih => exact fun runner unhooked => ih (runner.add plan) unhooked
    exact added plans {} rfl
  faultless := rfl
  untrapped := rfl
  gentle _ member := (List.not_mem_nil member).elim

/-- Whether the clock showed a time when the event was put on record. -/
def timed : Event → Bool
  | .tick _ now => now.isSet
  | _ => true

theorem set_of_timed {host : Host} (all : ∀ event ∈ host.trace, timed event) (now : Instant)
    (read : host.reads now) : now.isSet := by
  obtain ⟨tick, member⟩ := read
  exact all _ member

end Host

instance decidableEndsOk {ε α : Type} [DecidableEq α] (answer : Except ε α) (value : α) :
    Decidable (answer = .ok value) :=
  match answer with
  | .ok other => decidable_of_iff (other = value) (by simp)
  | .error _ => isFalse nofun

instance decidableBreaks {α : Type} (answer : Except Halt α) (breakdown : Breakdown) :
    Decidable (answer = .error (.broken breakdown)) :=
  match answer with
  | .ok _ => isFalse nofun
  | .error (.error _) => isFalse nofun
  | .error (.broken other) => decidable_of_iff (other = breakdown) (by simp)

/-! ## Small trees -/

namespace Tree

/-- An invocation without parameters. -/
def ofJob (standing : Standing) (name : String) : Tree :=
  .task { standing, name
          params := ∅
          securityToken := none
          allowMissing := false
          secret := ⟨"", .nothing⟩
          number := 1
          resolved := false
          build := none
          oldBuild := none
          stopSent := false }

/-- A group without a timeout. -/
def ofChildren (serial : Bool) (standing : Standing) (children : List Tree) : Tree :=
  .branch (Draft.freshGroup standing {} 5 "" (Draft.freshDiscipline serial)) children

end Tree

/-- A flow with nothing configured. -/
def Flow.ofTree (root : Tree) : Flow :=
  { root
    config := {}
    settings := ⟨true, "", none, []⟩
    style := ⟨none, 0⟩
    start := .none
    lastGraph := .none }

/-- A host with nothing but jobs. -/
def Host.ofPlans (plans : List JobPlan) : Host :=
  .start (plans.foldl Runner.add {}) {} ⟨1000000000⟩ .usable

end BuildFlow
