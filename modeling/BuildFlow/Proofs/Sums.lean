import BuildFlow.Proofs.Flow.Start
import BuildFlow.Proofs.Flow.Trail
import BuildFlow.Proofs.Tree.Timely
/-!
The result of a group against those of its children. A group takes over the least result that
its children pass on. Below unchecked work the children may come to something better later on,
but never to something worse; where nothing is unchecked, nothing changes any more.
-/
namespace BuildFlow

namespace Standing

variable {standing other : Standing}

/-- A node without a result may only look better later on, unless it looks like a failure. -/
theorem rank_of_unknown (unknown : standing.result = .unknown)
    (abnormal : standing.propagation ≠ .normal) (same : other.propagation = standing.propagation) :
    standing.propagatedResult.rank ≤ other.propagatedResult.rank := by
  cases kind : standing.propagation with
  | normal => exact absurd kind abnormal
  | unchecked =>
      simp [propagatedResult, same, kind]
  | failureToUnstable =>
      have here : standing.propagatedResult = .unstable := by simp [propagatedResult, kind, unknown]
      rw [here]
      rcases other.propagatedResult_range with success | unstable | failure
      · rw [success]
        decide
      · rw [unstable]
      · exact absurd (propagatedResult_eq_failure_iff.mp failure).1 (same ▸ abnormal)

theorem abnormal_of_unknown (unknown : standing.result = .unknown)
    (fares : standing.propagatedResult ≠ .failure) : standing.propagation ≠ .normal :=
  fun normal => fares ((propagatedResult_eq_failure_iff).mpr ⟨normal, by rw [unknown]; decide⟩)

end Standing

namespace Tree

/-- The result of a group is none of better than those of its children, and it is the least of
them where nothing below the group is unchecked. -/
def Sums : Tree → Prop
  | .task _ => True
  | .branch group children => group.standing.result ≠ .unknown →
      (∀ child ∈ children, group.standing.result.rank ≤ child.standing.propagatedResult.rank) ∧
      ((∀ child ∈ children, child.Clean) → group.standing.result =
        (children.map fun child => child.standing.propagatedResult).foldl min .unknown)

/-- A node without a result has nothing to sum up. -/
theorem sums_of_unknown {tree : Tree} (unknown : tree.standing.result = .unknown) : tree.Sums := by
  cases tree with
  | task leaf => trivial
  | branch group children => exact fun known => absurd unknown known

theorem sums_of_prepared {tree : Tree} {standing : Standing} {scope : Bool}
    (prepared : tree.standing = standing.prepare scope) : tree.Sums :=
  sums_of_unknown (prepared ▸ rfl)

theorem Sums.finish {tree : Tree} (sums : tree.Sums) : tree.finish.Sums := by
  cases tree with
  | task leaf => trivial
  | branch group children => exact sums

/-- A node that does not look like a failure never looks worse after a visit. -/
theorem KeepsSound.rank {tree next : Tree} {answer : Except Halt Unit} {there : World}
    (keeps : KeepsSound tree answer next there)
    (fares : tree.standing.propagatedResult ≠ .failure) :
    tree.standing.propagatedResult.rank ≤ next.standing.propagatedResult.rank := by
  by_cases unknown : tree.standing.result = .unknown
  · exact Standing.rank_of_unknown unknown (Standing.abnormal_of_unknown unknown fares)
      keeps.propagation
  · have same : next.standing.propagatedResult = tree.standing.propagatedResult := by
      unfold Standing.propagatedResult
      rw [(keeps.kept unknown).2, keeps.propagation]
    exact Nat.le_of_eq (congrArg BuildResult.rank same.symm)

end Tree

namespace Branch

/-- The visits that keep results and sums. -/
def sumCourse : Course Tree := fun child world answer next _ =>
  Answered answer → child.standing.isFinished = false → child.Sound world.runner →
    child.Every Tree.Timely → child.Every Tree.Sums → next.Every Tree.Sums

/-- The children of a group at some point of a pass. -/
structure PassSummed (first branch : Branch) (world : World) : Prop where
  sound : PassSound first.1 branch world
  timely : ∀ child ∈ branch.2, child.Every Tree.Timely
  sums : ∀ child ∈ branch.2, child.Every Tree.Sums
  bound : first.1.standing.result ≠ .unknown → ∀ child ∈ branch.2,
    first.1.standing.result.rank ≤ child.standing.propagatedResult.rank

section

variable {now : Instant} {index : Nat} {first branch next : Branch} {world there : World}
  {status : Checking} {child visited : Tree} {failure : JobFailure} {answer : Except Halt Unit}
  {again : Bool}

/-- The children when one of them was visited. -/
theorem PassSummed.put (kept : PassSummed first branch world)
    (here : branch.2[index]? = some child) (keeps : Tree.KeepsSound child answer visited there) :
    first.1.standing.result ≠ .unknown → ∀ other ∈ (branch.put index visited).2,
      first.1.standing.result.rank ≤ other.standing.propagatedResult.rank := by
  intro known other member
  rcases List.mem_or_eq_of_mem_set member with old | rfl
  · exact kept.bound known other old
  · have below := kept.bound known child (List.mem_of_getElem? here)
    by_cases failed : child.standing.propagatedResult = .failure
    · rw [failed] at below
      exact Nat.le_trans below (Nat.zero_le _)
    · exact Nat.le_trans below (keeps.rank failed)

theorem PassSummed.passes (kept : PassSummed first branch world)
    (here : branch.2[index]? = some child) (sweep : Tree.Sweeps now child world (.ok ()) visited there)
    (keeps : Tree.KeepsSound child (.ok ()) visited there) (timely : visited.Every Tree.Timely)
    (sums : visited.Every Tree.Sums) :
    PassSummed first ((branch.put index visited).cleared visited) there where
  sound := kept.sound.passes here sweep.grows keeps
  timely := PassTimely.put kept.timely timely
  sums other member := by
    rcases List.mem_or_eq_of_mem_set member with old | rfl
    · exact kept.sums other old
    · exact sums
  bound := kept.put here keeps

/-- Where a group has its result, only work that may fail is tried again. -/
theorem PassSummed.fails (kept : PassSummed first branch world)
    (here : branch.2[index]? = some child)
    (sweep : Tree.Sweeps now child world (failedBy failure) visited there)
    (keeps : Tree.KeepsSound child (failedBy failure) visited there)
    (timely : visited.Every Tree.Timely) (sums : visited.Every Tree.Sums)
    (answers : Answers (branch.put index visited) index visited failure (.ok again) next) :
    PassSummed first next there where
  sound := kept.sound.fails here sweep.grows keeps answers
  timely := PassTimely.answered (PassTimely.put kept.timely timely) answers timely
  sums := by
    refine answers.all (fun other member => ?_) sums (sums.finished sums.self.finish)
      fun other scope every =>
        every.prepared (Tree.sums_of_prepared (Tree.standing_prepare other scope))
    rcases List.mem_or_eq_of_mem_set member with old | rfl
    · exact kept.sums other old
    · exact sums
  bound known other member := by
    by_cases failed : first.1.standing.result = .failure
    · rw [failed]
      exact Nat.zero_le _
    -- A group that has not failed has no child that looks like a failure. So the one that fails
    -- now had no result yet and does not pass failures on, and it is prepared alone at most.
    have below := kept.bound known child (List.mem_of_getElem? here)
    have unknown : child.standing.result = .unknown := Decidable.byContradiction fun known => by
      cases (keeps.kept known).1
    have fares : child.standing.propagatedResult ≠ .failure := fun looks => by
      rw [looks] at below
      exact failed (eq_failure_of_le below)
    have abnormal := Standing.abnormal_of_unknown unknown fares
    obtain ⟨new, same, listed⟩ := answers.abnormal (keeps.propagation ▸ abnormal)
      (getElem?_put_self here visited)
    rw [listed] at member
    rcases List.mem_or_eq_of_mem_set member with old | rfl
    · exact kept.put here keeps known other old
    · exact Nat.le_trans below
        (Standing.rank_of_unknown unknown abnormal (same.trans keeps.propagation))

theorem aggregate_all {branch : Branch} (unknown : branch.1.standing.result = .unknown) :
    branch.aggregate branch.2.length =
      (branch.2.map fun child => child.standing.propagatedResult).foldl min .unknown := by
  unfold aggregate
  rw [show branch.children = branch.2 from rfl, List.take_length,
    show branch.group.standing.result = .unknown from unknown]

/-- A failure among the children in reach is the least result of all. -/
theorem least_of_failure {branch : Branch} (unknown : branch.1.standing.result = .unknown)
    (failure : (branch.aggregate branch.span).isFailure) :
    branch.aggregate branch.span = .failure ∧
      (branch.2.map fun child => child.standing.propagatedResult).foldl min .unknown = .failure := by
  obtain ⟨child, member, failed⟩ := exists_of_isFailure unknown failure
  have inside : child ∈ branch.2.take branch.2.length :=
    List.take_length.symm ▸ List.mem_of_mem_take member
  exact ⟨aggregate_of_isFailure unknown failure,
    (aggregate_all unknown).symm.trans (aggregate_eq_failure inside failed)⟩

/-- A group sums up its children when it takes over a result, and keeps what it has. -/
theorem Closes.sums {last : Branch} (closes : Closes now branch status answer last)
    (answered : Answered answer)
    (bound : branch.1.standing.result ≠ .unknown → ∀ child ∈ branch.2,
      branch.1.standing.result.rank ≤ child.standing.propagatedResult.rank)
    (unknown : (∀ child ∈ branch.2, child.Clean) → branch.1.standing.result = .unknown) :
    (Tree.branch last.1 last.2).Sums := by
  cases closes with
  | pending =>
      -- A group that has a result and is still at work has unchecked work below it.
      exact fun known => ⟨bound known, fun clean => absurd (unknown clean) known⟩
  | overdue => cases answered
  | fails settled failure =>
      obtain ⟨failed, least⟩ := least_of_failure (settled_unknown settled) failure
      refine fun _ => ⟨fun child _ => ?_, fun _ => failed.trans least.symm⟩
      change (branch.aggregate branch.span).rank ≤ _
      rw [failed]
      exact Nat.zero_le _
  | moves => exact Tree.sums_of_unknown rfl
  | ends settled fine all =>
      have result : branch.summed.moved.1.standing.result =
          (branch.2.map fun child => child.standing.propagatedResult).foldl min .unknown := by
        rw [branch.summed.standing_moved]
        change branch.aggregate branch.span = _
        rw [span_all all]
        exact aggregate_all (settled_unknown settled)
      refine fun _ => ⟨fun child member => ?_, fun _ => result⟩
      rw [result]
      exact (foldl_min_le _ _).2 _ (List.mem_map_of_mem member)

theorem PassSummed.start {group : Group} {children : List Tree}
    (sound : (Tree.branch group children).Sound world.runner)
    (timely : (Tree.branch group children).Every Tree.Timely)
    (sums : (Tree.branch group children).Every Tree.Sums) (now : Instant) :
    PassSummed (begun (group, children) now) (begun (group, children) now) world where
  sound := .start sound now
  timely := (Tree.every_branch.mp timely).2
  sums := (Tree.every_branch.mp sums).2
  bound := by
    obtain ⟨time, standing⟩ := Group.standing_begun group now
    change (group.begun now).standing.result ≠ _ →
      ∀ child ∈ children, (group.begun now).standing.result.rank ≤ _
    rw [standing]
    exact fun known => (sums.self known).1

theorem Pass.summed {indices : List Nat} {last : Branch} {after : World} {final : Checking}
    (pass : Pass (fun child world answer next after =>
        Tree.Sweeps now child world answer next after ∧ sumCourse child world answer next after)
      indices branch world status (.ok final) last after)
    (kept : PassSummed first branch world) : PassSummed first last after := by
  refine pass.carries (p := fun branch world _ => PassSummed first branch world) ?_ ?_ kept
  · intro index branch world status child next there kept here unfinished visit
    have member := List.mem_of_getElem? here
    have sound := kept.sound.sound child member
    have timely := kept.timely child member
    exact kept.passes here visit.1 (visit.1.sound .ok unfinished sound)
      (visit.1.timely unfinished timely)
      (visit.2 .ok unfinished sound timely (kept.sums child member))
  · intro index branch world status child next there failure again answered kept here unfinished
      visit answers
    have member := List.mem_of_getElem? here
    have sound := kept.sound.sound child member
    have timely := kept.timely child member
    exact kept.fails here visit.1 (visit.1.sound (.failed failure) unfinished sound)
      (visit.1.timely unfinished timely)
      (visit.2 (.failed failure) unfinished sound timely (kept.sums child member)) answers

theorem Sweeps.sums {group group' : Group} {children children' : List Tree} {after : World}
    (sweeps : Sweeps now (fun child world answer next after =>
        Tree.Sweeps now child world answer next after ∧ sumCourse child world answer next after)
      (group, children) world answer (group', children') after) (answered : Answered answer)
    (unfinished : group.standing.isFinished = false)
    (sound : (Tree.branch group children).Sound world.runner)
    (timely : (Tree.branch group children).Every Tree.Timely)
    (sums : (Tree.branch group children).Every Tree.Sums) :
    (Tree.branch group' children').Every Tree.Sums := by
  cases sweeps with
  | halts pass => cases answered; exact absurd rfl (pass.hard _)
  | @closes passed _ _ status _ pass closes =>
      have kept := pass.summed (.start sound timely sums now)
      have blank : passed.blank = Branch.blank (group, children) :=
        (pass.blank fun visit => visit.1.blank).trans (blank_begun _ now)
      have result := result_closed passed status
      refine Tree.every_branch.mpr ⟨closes.sums answered ?_ fun clean => ?_, ?_⟩
      · rw [result, kept.sound.result]
        exact kept.bound
      · exact result.trans (pass.unknown_of_clean timely now unfinished blank clean)
      · have same : children' = passed.2 := closes.children
        exact same ▸ kept.sums

end

end Branch

/-- Every sweep keeps it that groups sum up their children. -/
theorem Tree.Sweeps.sums {now : Instant} {tree next : Tree} {world after : World}
    {answer : Except Halt Unit} (sweeps : Tree.Sweeps now tree world answer next after)
    (answered : Answered answer) (unfinished : tree.standing.isFinished = false)
    (sound : tree.Sound world.runner) (timely : tree.Every Timely) (sums : tree.Every Sums) :
    next.Every Sums := by
  refine Sweeps.rule (p := Branch.sumCourse) ?_ ?_ sweeps answered unfinished sound timely sums
  · exact fun _ _ _ _ _ _ => every_task.mpr trivial
  · intro group children world answer group' children' after sweeps answered unfinished sound timely
      sums
    exact sweeps.sums answered unfinished sound timely sums

namespace Flow

variable {flow : Flow} {reads : Instant → Prop} {world : World} {state : Tree × World}

/-- In all states of a run nodes are timely. -/
theorem Passes.timely (passes : flow.Passes reads world state) : state.1.Every Tree.Timely := by
  refine passes.keeps (p := fun state => state.1.Every Tree.Timely)
    (fun prepared node member => .prepared (prepared.2.2 node member).standing) ?_
  rintro state next - timely ⟨unsettled, -, -, sweep⟩
  exact sweep.timely (Standing.unfinished unsettled) timely

/-- In all states of a run groups sum up their children. -/
theorem Passes.sums (passes : flow.Passes reads world state) : state.1.Every Tree.Sums := by
  refine passes.keeps (p := fun state => state.1.Every Tree.Sums)
    (fun prepared node member => Tree.sums_of_prepared (prepared.2.2 node member).standing) ?_
  rintro state next passes sums ⟨unsettled, -, answered, sweep⟩
  exact sweep.sums answered (Standing.unfinished unsettled)
    (passes.sound.grows (Runner.grows_next state.2.runner)) passes.timely sums

/-- After every sweep of a run, a group that has a result has come to no better one than any
of its children, and to the least of theirs if no node below it is unchecked. -/
theorem run_sums {flow flow' : Flow} {host host' : Host} {answer : Except Halt BuildResult}
    (fresh : flow.root.IsFresh) (quiet : host.Quiet) (alive : flow.config.killAll = false)
    (ran : run.run (flow, host) = (answer, flow', host')) :
    flow.Halted host'.reads host.world answer flow'.root host'.world ∧
      ∀ state, flow.Passes host'.reads host.world state → state.1.Every Tree.Sums :=
  ⟨((leads_run quiet fresh alive).ran ran).halts fresh,
    fun _ passes => passes.sums⟩

/-- Two invocations at once, the failures of which count as unstable, and then another one. -/
def softFlow : Flow :=
  .ofTree (.ofChildren true (.fresh 0 0 1 1 .normal) [
    .ofChildren false (.fresh 1 1 1 1 .failureToUnstable) [
      .ofJob (.fresh 2 2 1 1 .failureToUnstable) "build",
      .ofJob (.fresh 3 2 1 1 .failureToUnstable) "lint"],
    .ofJob (.fresh 4 1 1 1 .normal) "deploy"])

def softHost : Host :=
  .ofPlans [{ name := "build" }, { name := "lint", maxFails := 1 }, { name := "deploy" }]

set_option maxRecDepth 100000 in
theorem run_sums_soft :
    ∃ (answer : Except Halt BuildResult) (flow' : Flow) (host' : Host),
      run.run (softFlow, softHost) = (answer, flow', host') ∧
      flow'.root.standing.result = .unstable ∧
      softFlow.Halted host'.reads softHost.world answer flow'.root host'.world ∧
      ∀ state, softFlow.Passes host'.reads softHost.world state → state.1.Every Tree.Sums := by
  have unstable : (run.run (softFlow, softHost)).2.1.root.standing.result = .unstable := by
    decide +kernel
  generalize ran : run.run (softFlow, softHost) = out at *
  obtain ⟨answer, flow', host'⟩ := out
  obtain ⟨halted, sums⟩ := @run_sums softFlow _ softHost _ _ rfl (Host.quiet_start _ _ _) rfl ran
  exact ⟨answer, flow', host', rfl, unstable, halted, sums⟩

/-- An unchecked job keeps a group at work whose failures count as unstable. -/
def staleFlow : Flow :=
  .ofTree (.ofChildren true (.fresh 0 0 2 2 .normal) [
    .ofChildren false (.fresh 1 1 1 2 .failureToUnstable) [
      .ofJob (.fresh 2 2 1 2 .failureToUnstable) "build",
      .ofJob (.fresh 3 2 1 2 .unchecked) "lint"],
    .ofJob (.fresh 4 1 2 2 .normal) "deploy"])

def staleHost : Host :=
  .ofPlans [{ name := "build", maxFails := 1 }, { name := "lint", execTicks := 6 },
    { name := "deploy", execTicks := 4 }]

/-- The result of each child of a node that is a group, with the least that its own children
pass on. -/
def tallies (root : Tree) : List (BuildResult × BuildResult) :=
  (root.children.filter fun child => child.children ≠ []).map fun child =>
    (child.standing.result,
      (child.children.map fun below => below.standing.propagatedResult).foldl min .unknown)

set_option maxRecDepth 100000 in
/-- The job that failed at first is tried again below the group that has its result already.
It succeeds, and the group stays unstable, and so does the flow. -/
theorem run_sums_stale :
    staleFlow.root.IsFresh ∧ staleHost.Quiet ∧
      ∃ (answer : Except Halt BuildResult) (flow' : Flow) (host' : Host),
        run.run (staleFlow, staleHost) = (answer, flow', host') ∧
        flow'.root.checking = .finished ∧ flow'.root.standing.result = .unstable ∧
        tallies flow'.root = [(.unstable, .success)] := by
  refine ⟨rfl, Host.quiet_start _ _ _, ?_⟩
  have finished : (run.run (staleFlow, staleHost)).2.1.root.checking = .finished := by decide +kernel
  have unstable : (run.run (staleFlow, staleHost)).2.1.root.standing.result = .unstable := by
    decide +kernel
  have stale : tallies (run.run (staleFlow, staleHost)).2.1.root = [(.unstable, .success)] := by
    decide +kernel
  generalize run.run (staleFlow, staleHost) = out at *
  obtain ⟨answer, flow', host'⟩ := out
  exact ⟨answer, flow', host', rfl, finished, unstable, stale⟩

end Flow

end BuildFlow
