import Mathlib.Algebra.Order.BigOperators.Group.List
import Mathlib.Algebra.Order.Group.Nat
import BuildFlow.Proofs.Flow.Run
import BuildFlow.Proofs.Tree.Spending
/-!
How long the loop of a run can go on. The budget of a tree is a number once the
lesser sums are known to stay below a bound that retries do not change. Each
sweep brings this number down, or brings the last build that is still open
closer to its end.
-/
namespace BuildFlow

namespace Tree

/-! ## Bounds that no sweep changes -/

theorem sum_le {measure bound : Tree → Nat} (le : ∀ node, measure node ≤ bound node)
    (tree : Tree) : tree.sum measure ≤ tree.sum bound := by
  unfold sum
  induction tree.nodes with
  | nil => exact Nat.le_refl _
  | cons node rest ih =>
      simp only [List.map_cons, List.sum_cons]
      exact Nat.add_le_add (le node) ih

theorem sum_blank {measure : Tree → Nat} (same : ∀ node, measure node.blank = measure node)
    (tree : Tree) : tree.blank.sum measure = tree.sum measure := by
  induction tree using childrenInduction with
  | leaf leaf =>
      simp only [blank, sum_task]
      exact same (.task leaf)
  | branch group children ih =>
      have here : measure (.branch group.blank (children.map blank)) =
          measure (.branch group children) := blanks_eq children ▸ same (.branch group children)
      simp only [blank, blanks_eq, sum_branch, here, List.map_map]
      congr 2
      exact List.map_congr_left fun child member => ih child member

theorem sum_of_layout {measure : Tree → Nat} (same : ∀ node, measure node.blank = measure node)
    {tree next : Tree} (layout : next.blank = tree.blank) : next.sum measure = tree.sum measure := by
  rw [← sum_blank same, layout, sum_blank same]

def totalCap (node : Tree) : Nat := node.standing.totalMaxTries
def scopeCap (node : Tree) : Nat := node.standing.maxTries

def stepsCap : Tree → Nat
  | .task _ => 2
  | .branch _ children => children.length + 1

theorem totalLeft_le (node : Tree) : node.totalLeft ≤ node.totalCap :=
  Nat.le_trans (Nat.sub_le _ _) (Nat.sub_le _ _)

theorem scopeLeft_le (node : Tree) : node.scopeLeft ≤ node.scopeCap :=
  Nat.le_trans (Nat.sub_le _ _) (Nat.sub_le _ _)

theorem stepsLeft_le (node : Tree) : node.stepsLeft ≤ node.stepsCap := by
  cases node with
  | task leaf =>
      simp only [stepsLeft, stepsCap, Standing.awaited, Standing.unbegun]
      split <;> split <;> decide
  | branch group children =>
      simp only [stepsLeft, stepsCap, Standing.awaited]
      split <;> split <;> omega

theorem totalCap_blank (node : Tree) : node.blank.totalCap = node.totalCap := by
  cases node <;> rfl

theorem scopeCap_blank (node : Tree) : node.blank.scopeCap = node.scopeCap := by
  cases node <;> rfl

theorem stepsCap_blank (node : Tree) : node.blank.stepsCap = node.stepsCap := by
  cases node with
  | task => rfl
  | branch group children => simp [blank, stepsCap, blanks_eq]

/-- The budget as one number. -/
def weight (tree : Tree) : Nat :=
  (tree.budget.total * (tree.sum scopeCap + 1) + tree.budget.scope) * (tree.sum stepsCap + 1) +
    tree.budget.steps

theorem digits_lt {high high' low low' bound : Nat} (less : high' < high) (within : low' ≤ bound) :
    high' * (bound + 1) + low' < high * (bound + 1) + low :=
  calc high' * (bound + 1) + low' < (high' + 1) * (bound + 1) := by
        rw [Nat.succ_mul]
        omega
    _ ≤ high * (bound + 1) := Nat.mul_le_mul_right _ less
    _ ≤ high * (bound + 1) + low := Nat.le_add_right _ _

theorem weight_lt {tree next : Tree} (layout : next.blank = tree.blank)
    (less : next.budget.Less tree.budget) : next.weight < tree.weight := by
  have scopes := sum_of_layout scopeCap_blank layout
  have steps := sum_of_layout stepsCap_blank layout
  have scope : next.budget.scope ≤ tree.sum scopeCap := scopes ▸ sum_le scopeLeft_le next
  have within : next.budget.steps ≤ tree.sum stepsCap := steps ▸ sum_le stepsLeft_le next
  unfold weight
  rw [scopes, steps]
  rcases less with total | ⟨total, less⟩
  · exact digits_lt (digits_lt total scope) within
  · rw [total]
    rcases less with scope | ⟨scope, steps⟩
    · exact digits_lt (Nat.add_lt_add_left scope _) within
    · rw [scope]
      exact Nat.add_lt_add_left steps _

theorem weight_le {tree next : Tree} (layout : next.blank = tree.blank)
    (atMost : next.budget.AtMost tree.budget) : next.weight ≤ tree.weight := by
  by_cases less : next.budget.Less tree.budget
  · exact Nat.le_of_lt (weight_lt layout less)
  · apply Nat.le_of_eq
    simp only [weight, atMost.eq less, sum_of_layout scopeCap_blank layout,
      sum_of_layout stepsCap_blank layout]

/-- The most that the budget of a tree can come to, whatever state it is in. -/
def weightCap (tree : Tree) : Nat :=
  (tree.sum totalCap * (tree.sum scopeCap + 1) + tree.sum scopeCap) * (tree.sum stepsCap + 1) +
    tree.sum stepsCap

theorem weight_le_cap {tree next : Tree} (layout : next.blank = tree.blank) :
    next.weight ≤ tree.weightCap := by
  have total : next.budget.total ≤ tree.sum totalCap :=
    sum_of_layout totalCap_blank layout ▸ sum_le totalLeft_le next
  have scope : next.budget.scope ≤ tree.sum scopeCap :=
    sum_of_layout scopeCap_blank layout ▸ sum_le scopeLeft_le next
  have steps : next.budget.steps ≤ tree.sum stepsCap :=
    sum_of_layout stepsCap_blank layout ▸ sum_le stepsLeft_le next
  unfold weight weightCap
  rw [sum_of_layout scopeCap_blank layout, sum_of_layout stepsCap_blank layout]
  exact Nat.add_le_add
    (Nat.mul_le_mul_right _ (Nat.add_le_add (Nat.mul_le_mul_right _ total) scope)) steps

end Tree

/-! ## How long builds go on -/

/-- The builds that the job has end within so many ticks from now, and each that
is yet to start ends within so many ticks from its start. -/
structure Job.Brief (longest tick : Nat) (job : Job) : Prop where
  builds : ∀ build ∈ job.builds, build.endTick ≤ tick + longest
  plan : job.plan.queueTicks + job.plan.execTicks ≤ longest

theorem Build.progress_ended {build : Build} {tick : Nat} (ended : build.endTick ≤ tick) :
    build.progress tick = .idle := by
  have starts : build.startTick ≤ build.endTick := Nat.le_add_right _ _
  unfold progress status
  split
  · rfl
  · rw [if_neg (by omega), if_neg (by omega)]

namespace Runner

/-- All builds end within so many ticks from now. -/
def Drained (wait : Nat) (runner : Runner) : Prop :=
  ∀ name, ∀ build ∈ runner.buildsOf name, build.endTick ≤ runner.tick + wait

/-- Every job is brief. -/
def Brief (longest tick : Nat) (runner : Runner) : Prop :=
  runner.Every fun _ job => job.Brief longest tick

theorem brief_lasting {longest tick : Nat} (positive : 0 < longest) :
    Lasting fun _ job => job.Brief longest tick where
  lookups _ _ _ brief := ⟨brief.builds, brief.plan⟩
  present _ _ brief := ⟨brief.builds, brief.plan⟩
  plain _ := ⟨fun _ member => (List.not_mem_nil member).elim, positive⟩

theorem brief_invoke {longest tick : Nat} {job : Job} (brief : job.Brief longest tick)
    (request : InvokeRequest) : (job.invoke tick request).Brief longest tick where
  plan := brief.plan
  builds build member := by
    rcases List.mem_append.mp member with old | new
    · obtain ⟨before, member, same⟩ := List.mem_map.mp old
      rw [← same, (Build.grows_supersede before tick).ends]
      exact brief.builds before member
    · rw [List.mem_singleton.mp new]
      have plan := brief.plan
      simp only [Build.endTick, Build.startTick, Job.nextBuild, Job.supersede]
      omega

theorem Brief.later {longest tick : Nat} {runner : Runner} (brief : runner.Brief longest tick) :
    runner.Brief longest (tick + 1) := by
  intro name job listed
  have now := brief name job listed
  exact ⟨fun build member => Nat.le_trans (now.builds build member) (by omega), now.plan⟩

theorem exists_job {runner : Runner} {name : String} {build : Build}
    (member : build ∈ runner.buildsOf name) :
    ∃ job, runner.jobs.get? name = some job ∧ build ∈ job.builds := by
  unfold buildsOf at member
  cases listed : runner.jobs.get? name with
  | none => simp [listed] at member
  | some job => exact ⟨job, rfl, by simpa [listed] using member⟩

theorem Brief.drained {longest : Nat} {runner : Runner}
    (brief : runner.Brief longest runner.tick) : runner.Drained longest := by
  intro name build member
  obtain ⟨job, listed, member⟩ := exists_job member
  exact (brief name job listed).builds build member

/-- A build that is there is among those of its job. -/
theorem mem_of_build? {runner : Runner} {ref : BuildRef} {build : Build}
    (found : runner.build? ref = some build) : build ∈ runner.buildsOf ref.job := by
  obtain ⟨job, listed, held⟩ := Option.bind_eq_some_iff.mp found
  rw [buildsOf_of_job? listed]
  exact List.mem_of_getElem? held

/-- Some build is yet to end. -/
def Unended (runner : Runner) : Prop :=
  ∃ name, ∃ build ∈ runner.buildsOf name, runner.tick < build.endTick

/-- A build that will have a result is open only until it ends. -/
theorem unended_of_open {runner : Runner} {ref : BuildRef} {build : Build}
    (found : runner.build? ref = some build) (known : build.Known)
    (open' : build.Open runner.tick) : runner.Unended := by
  refine ⟨ref.job, build, mem_of_build? found, Nat.lt_of_not_le fun ended => ?_⟩
  have idle := Build.progress_ended ended
  rcases open' with going | unknown
  · exact going idle
  · exact Build.status_known known (Prod.ext unknown idle) rfl

/-- A bound on when the builds of a job end and on how long its next one takes. -/
def load (job : Job) : Nat :=
  (job.builds.map Build.endTick).sum + (job.plan.queueTicks + job.plan.execTicks)

/-- There is a bound on how long the builds of a job table go on. -/
theorem exists_brief (runner : Runner) :
    ∃ longest, 0 < longest ∧ runner.Brief longest runner.tick := by
  refine ⟨(runner.jobs.values.map load).sum + 1, Nat.succ_pos _, fun name job listed => ?_⟩
  have bounded : load job ≤ (runner.jobs.values.map load).sum :=
    List.le_sum_of_mem (List.mem_map_of_mem (Table.mem_values_of_get? _ listed))
  replace bounded : (job.builds.map Build.endTick).sum +
      (job.plan.queueTicks + job.plan.execTicks) ≤ (runner.jobs.values.map load).sum := bounded
  refine ⟨fun build member => ?_, by omega⟩
  have ends : build.endTick ≤ (job.builds.map Build.endTick).sum :=
    List.le_sum_of_mem (List.mem_map_of_mem member)
  omega

end Runner

/-- The host with another limit on the ticks that are answered. -/
def Host.upTo (host : Host) (limit : Nat) : Host :=
  { host with script := { host.script with maxTicks := limit } }

theorem Host.Quiet.upTo {host : Host} (quiet : host.Quiet) (limit : Nat) :
    (host.upTo limit).Quiet :=
  ⟨quiet.calm, quiet.unsignalled, quiet.unhooked, quiet.faultless, quiet.untrapped, quiet.gentle⟩

namespace Flow

theorem Looped.settles {dir : Bool} {limit : Nat} {reads : Instant → Prop} {tree last : Tree}
    {world after : World} (looped : Looped dir limit reads tree world (.ok ()) last after) :
    last.checking ≠ .mustCheck := by
  generalize ended : Except.ok () = answer at looped
  induction looped with
  | settled settled => exact settled
  | again _ _ _ _ _ ih => exact ih ended
  | broke => cases ended
  | refused => cases ended
  | overrun => cases ended
  | unwritten => cases ended

/-- A tree that is not waited for is not visited, and time stands still. -/
theorem Looped.still {dir : Bool} {limit : Nat} {reads : Instant → Prop} {tree last : Tree}
    {world after : World} {answer : Except Halt Unit}
    (looped : Looped dir limit reads tree world answer last after)
    (settled : tree.checking ≠ .mustCheck) :
    after.runner.tick = world.runner.tick ∧ answer ≠ .error Host.tickLimit := by
  cases looped with
  | settled => exact ⟨rfl, nofun⟩
  | again unsettled => exact absurd unsettled settled
  | broke unsettled => exact absurd unsettled settled
  | refused unsettled => exact absurd unsettled settled
  | overrun => exact ⟨rfl, nofun⟩
  | unwritten _ unsettled => exact absurd unsettled settled

/-- Something that sweeps keep, and where it holds of a tree, a build that is
waited for ends some time. -/
structure Lively (reads : Instant → Prop) (kept : Tree → World → Prop) : Prop where
  keeps : ∀ {now : Instant} {tree next : Tree} {world after : World}, reads now →
    tree.standing.isFinished = false → tree.Sound world.next.runner → kept tree world →
    Tree.Sweeps now tree world.next (.ok ()) next after → kept next after
  unended : ∀ {tree : Tree} {world after : World}, kept tree world → tree.Sound world.runner →
    world.runner.Grows after.runner →
    (∀ name, after.runner.buildsOf name = world.runner.buildsOf name) →
    after.runner.Busy tree.Attends → after.runner.Unended

/-- Builds that all come to a result are waited for only so long. -/
theorem lively_known (reads : Instant → Prop) :
    Lively reads fun tree world => world.runner.Every (Runner.KnownOf tree.names) where
  keeps _ _ _ known sweep := by
    rw [Tree.names_of_layout sweep.blank]
    exact sweep.every (Runner.known_lasting _) .ok
      (fun _ job request known member => Job.known_invoke (known member) _ request)
      (Runner.every_next (Runner.known_lasting _) known)
  unended known sound _ same busy := by
    obtain ⟨ref, ⟨leaf, inside, followed⟩, build, found, open'⟩ := busy
    have leafSound : leaf.Sound _ := sound _ inside
    have named : ref.job = leaf.name := (leafSound.anchored ref followed).1
    have member := Runner.mem_of_build? found
    rw [same] at member
    obtain ⟨job, listed, member⟩ := Runner.exists_job member
    have job := known ref.job job listed
      (named ▸ Tree.names_of_mem_nodes inside (List.mem_singleton_self _))
    exact Runner.unended_of_open found (job.builds build member) open'

/-- Builds that are started in a round do not take longer than those before. -/
theorem brief_round {now : Instant} {tree next : Tree} {world there : World} {longest : Nat}
    (positive : 0 < longest) (sweep : Tree.Sweeps now tree world.next (.ok ()) next there)
    (brief : world.runner.Brief longest world.runner.tick) :
    there.runner.Brief longest there.runner.tick := by
  rw [sweep.grows.tick]
  refine sweep.every (Runner.brief_lasting positive) .ok
    (fun _ job request brief => Runner.brief_invoke brief request) ?_
  rw [World.next, Runner.tick_next]
  exact Runner.every_next (Runner.brief_lasting positive) brief.later

/-- Either a sweep uses up some of the budget, or it waits for builds that were started before, and
then there is one tick less to wait for them. -/
theorem Lively.lightens {reads : Instant → Prop} {kept : Tree → World → Prop} {now : Instant}
    {tree next : Tree} {world there : World} {wait : Nat} (lively : Lively reads kept)
    (set : now.isSet) (unfinished : tree.standing.isFinished = false)
    (sound : tree.Sound world.runner) (holds : kept tree world)
    (drained : world.runner.Drained wait)
    (sweep : Tree.Sweeps now tree world.next (.ok ()) next there)
    (checked : next.standing.isUnchecked = false) (waits : next.checking = .mustCheck) :
    next.weight < tree.weight ∨
      next.weight ≤ tree.weight ∧ 1 < wait ∧ there.runner.Drained (wait - 1) := by
  have spends := sweep.spends set .ok unfinished (sound.grows (Runner.grows_next world.runner))
  by_cases less : next.budget.Less tree.budget
  · exact .inl (Tree.weight_lt sweep.blank less)
  refine .inr ⟨Tree.weight_le sweep.blank spends.atMost, ?_⟩
  have busy := (spends.waits rfl (Standing.propagatedChecking_eq_mustCheck.mpr
    ⟨checked, waits⟩)).resolve_left less
  have same : ∀ name, there.runner.buildsOf name = world.runner.buildsOf name := fun name =>
    ((spends.still less).2 name).trans (Runner.buildsOf_next world.runner name)
  have tick : there.runner.tick = world.runner.tick + 1 :=
    sweep.grows.tick.trans (Runner.tick_next _)
  have ends : ∀ name, ∀ build ∈ there.runner.buildsOf name,
      build.endTick ≤ world.runner.tick + wait := fun name build member =>
    drained name build (same name ▸ member)
  constructor
  · obtain ⟨name, build, member, unended⟩ := lively.unended holds sound
      ((Runner.grows_next _).trans sweep.grows.runner) same busy
    have := ends name build member
    omega
  · intro name build member
    have := ends name build member
    rw [tick]
    omega

/-- The loop ends within so many ticks, unless no more ticks are answered. -/
theorem Looped.ends {dir : Bool} {limit : Nat} {reads : Instant → Prop} {tree last : Tree}
    {world after : World} {answer : Except Halt Unit} {longest wait : Nat} (positive : 0 < longest)
    (looped : Looped dir limit reads tree world answer last after)
    (set : ∀ now, reads now → now.isSet) (checked : tree.standing.isUnchecked = false)
    (sound : tree.Sound world.runner) {kept : Tree → World → Prop} (lively : Lively reads kept)
    (holds : kept tree world) (brief : world.runner.Brief longest world.runner.tick)
    (drained : world.runner.Drained wait) :
    after.runner.tick ≤ world.runner.tick + tree.weight * (longest + 1) + wait + 1 ∧
      (answer = .error Host.tickLimit →
        limit < world.runner.tick + tree.weight * (longest + 1) + wait + 1) := by
  -- By induction on the rounds. Each of them makes the tree lighter, or the wait shorter.
  induction looped generalizing wait with
  | settled => exact ⟨by omega, fun refused => by cases refused⟩
  | @again tree next last world there after now answer unsettled read within sweep onward ih =>
      have unfinished := Standing.unfinished unsettled
      have started := sound.grows (Runner.grows_next world.runner)
      have keeps := sweep.sound .ok unfinished started
      have tick : there.runner.tick = world.runner.tick + 1 :=
        sweep.grows.tick.trans (Runner.tick_next _)
      have checked' : next.standing.isUnchecked = false := by
        unfold Standing.isUnchecked at checked ⊢
        rw [keeps.propagation]
        exact checked
      have holds' := lively.keeps read unfinished started holds sweep
      have brief' := brief_round positive sweep brief
      by_cases waits : next.checking = .mustCheck
      · rcases lively.lightens (set now read) unfinished sound holds drained sweep checked' waits with
          lighter | ⟨lighter, waited, drained'⟩
        · have product := Nat.mul_le_mul_right (longest + 1) lighter
          rw [Nat.succ_mul] at product
          obtain ⟨ends, refuses⟩ := ih checked' keeps.sound holds' brief' brief'.drained
          refine ⟨by omega, fun refused => ?_⟩
          have := refuses refused
          omega
        · have product := Nat.mul_le_mul_right (longest + 1) lighter
          obtain ⟨ends, refuses⟩ := ih checked' keeps.sound holds' brief' drained'
          refine ⟨by omega, fun refused => ?_⟩
          have := refuses refused
          omega
      · obtain ⟨still, unrefused⟩ := onward.still waits
        exact ⟨by omega, fun refused => absurd refused unrefused⟩
  | broke _ _ _ sweep =>
      have tick := sweep.grows.tick.trans (Runner.tick_next _)
      refine ⟨by omega, fun refused => ?_⟩
      cases refused
      cases sweep.ofSweep
  | refused _ beyond =>
      have tick := Runner.tick_next
      refine ⟨?_, fun _ => by omega⟩
      rw [World.next, tick]
      omega
  | overrun => exact ⟨by omega, fun refused => by cases refused⟩
  | unwritten _ _ _ _ sweep =>
      have tick := sweep.grows.tick.trans (Runner.tick_next _)
      exact ⟨by omega, fun refused => by cases refused⟩

/-! ## Whole runs -/

/-- The sweeps that a flow may need if builds go on for so many ticks. -/
def sweepsCap (root : Tree) (longest : Nat) : Nat :=
  root.weightCap * (longest + 1) + longest + 1

theorem Driven.within {config : RunConfig} {requireIdle : Bool} {limit : Nat}
    {reads : Instant → Prop} {tree last : Tree} {world after : World}
    {answer : Except Halt BuildResult} {longest : Nat} (positive : 0 < longest)
    (driven : Driven config requireIdle limit reads tree world answer last after)
    (fresh : tree.IsFresh) (set : ∀ now, reads now → now.isSet)
    {kept : Tree → World → Prop} (lively : Lively reads kept)
    (holds : ∀ first there, tree.Prepared requireIdle world (.ok ()) first there → kept first there)
    (brief : world.runner.Brief longest world.runner.tick) :
    after.runner.tick ≤ world.runner.tick + sweepsCap tree longest ∧
      (answer = .error Host.tickLimit → limit < world.runner.tick + sweepsCap tree longest) := by
  cases driven with
  | unprepared prepared =>
      obtain ⟨same, -, leaf, -, refused⟩ := prepared
      have tick := same.grows.tick
      refine ⟨by omega, fun ended => ?_⟩
      cases ended
      cases refused
  | unwritten prepared =>
      have tick := prepared.1.grows.tick
      exact ⟨by omega, nofun⟩
  | unslept prepared =>
      have tick := prepared.1.grows.tick
      exact ⟨by omega, nofun⟩
  -- Preparing the tree takes no tick, so only the loop counts.
  | @looped first _ there _ ended _ prepared looped concluded =>
      obtain ⟨same, layout, ready⟩ := prepared
      have tick := same.grows.tick
      have limited : answer = .error Host.tickLimit → ended = .error Host.tickLimit := by
        rintro rfl
        cases concluded
        rfl
      suffices bound : after.runner.tick ≤ there.runner.tick + sweepsCap tree longest ∧
          (ended = .error Host.tickLimit → limit < there.runner.tick + sweepsCap tree longest) by
        rw [tick] at bound
        exact ⟨bound.1, fun refused => bound.2 (limited refused)⟩
      by_cases waits : first.checking = .mustCheck
      · have brief' : there.runner.Brief longest there.runner.tick :=
          tick ▸ same.every _ (Runner.brief_lasting positive) brief
        obtain ⟨ends, refuses⟩ := looped.ends positive set (Tree.checked_of_ready ready waits)
          (Tree.sound_of_ready ready) lively (holds first there ⟨same, layout, ready⟩) brief'
          brief'.drained
        have heavy : first.weight ≤ tree.weightCap :=
          Tree.weight_le_cap (by rw [layout]; exact fresh.symm)
        have product := Nat.mul_le_mul_right (longest + 1) heavy
        unfold sweepsCap
        refine ⟨by omega, fun refused => ?_⟩
        have := refuses refused
        omega
      · obtain ⟨still, unrefused⟩ := looped.still waits
        exact ⟨by omega, fun refused => absurd refused unrefused⟩

theorem Ran.within {flow : Flow} {limit : Nat} {reads : Instant → Prop} {world after : World}
    {answer : Except Halt BuildResult} {last : Tree} {longest : Nat} (positive : 0 < longest)
    (ran : Ran flow limit reads world answer last after) (fresh : flow.root.IsFresh)
    (set : ∀ now, reads now → now.isSet) {kept : Tree → World → Prop} (lively : Lively reads kept)
    (holds : ∀ first there,
      flow.root.Prepared flow.settings.requireIdle world (.ok ()) first there → kept first there)
    (brief : world.runner.Brief longest world.runner.tick) :
    after.runner.tick ≤ world.runner.tick + sweepsCap flow.root longest ∧
      (answer = .error Host.tickLimit →
        limit < world.runner.tick + sweepsCap flow.root longest) := by
  cases ran with
  | unwritten => exact ⟨by omega, nofun⟩
  | idle => exact ⟨by omega, nofun⟩
  | halted driven => exact driven.within positive fresh set lively holds brief
  | finished driven => exact ⟨(driven.within positive fresh set lively holds brief).1, nofun⟩
  | raised driven => exact ⟨(driven.within positive fresh set lively holds brief).1, nofun⟩

end Flow

end BuildFlow
