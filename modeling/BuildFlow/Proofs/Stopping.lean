import BuildFlow.Proofs.Flow.Start
import BuildFlow.Proofs.Tree.Life
/-!
What a serial group does about a child that fails for good. The cursor leaves the
group, and no later child is visited in that sweep. If the group is not visited
again before its next attempt, none ever is; a group that has work left from
earlier children is visited again, and then begins with all children that it had
not reached.
-/
namespace BuildFlow

namespace Tree

/-! ## Beginning with a child -/

/-- A checked invocation that has not begun, or a group that has children. -/
def Unbegun : Tree → Prop
  | .task leaf =>
      leaf.isUnchecked = false ∧ leaf.standing.isInvoked = false ∧
        leaf.standing.isFinished = false
  | .branch group children => group.standing.isFinished = false ∧ children ≠ []

/-- No invocation of the tree has begun. -/
def Waiting (tree : Tree) : Prop := tree.Every Unbegun

/-- Some invocation of the tree starts a build, unless its job does not exist. -/
def Starts (tree : Tree) (world after : World) : Prop :=
  ∃ name ∈ tree.names, world.runner.job? name = none ∨
    (world.runner.buildsOf name).length < (after.runner.buildsOf name).length

theorem Starts.wider {tree : Tree} {world there there' after : World}
    (starts : tree.Starts there there') (before : world.Grows there) (later : there'.Grows after) :
    tree.Starts world after := by
  obtain ⟨name, named, missing | more⟩ := starts
  · refine ⟨name, named, .inl ?_⟩
    cases found : world.runner.job? name with
    | none => rfl
    | some job =>
        obtain ⟨next, found', -⟩ := before.runner.job? found
        cases missing.symm.trans found'
  · refine ⟨name, named, .inr ?_⟩
    calc (world.runner.buildsOf name).length
        ≤ (there.runner.buildsOf name).length := before.runner.length name
      _ < (there'.runner.buildsOf name).length := more
      _ ≤ (after.runner.buildsOf name).length := later.runner.length name

theorem starts_of_names {tree next : Tree} (names : next.names = tree.names) {world after : World} :
    next.Starts world after ↔ tree.Starts world after := by
  unfold Starts
  rw [names]

theorem Waiting.unfinished {tree : Tree} (waiting : tree.Waiting) :
    tree.standing.isFinished = false := by
  have here := waiting.self
  cases tree with
  | task leaf => exact here.2.2
  | branch group children => exact here.1

theorem Waiting.prepare {tree : Tree} (waiting : tree.Waiting) (scope : Bool) :
    (tree.prepare scope).Waiting := by
  have unfinished := fun standing : Standing => standing.isFinished_prepare scope
  cases tree with
  | task leaf => exact every_task.mpr ⟨(every_task.mp waiting).1, rfl, unfinished _⟩
  | branch group children =>
      obtain ⟨⟨-, inhabited⟩, below⟩ := every_branch.mp waiting
      exact every_branch.mpr ⟨⟨unfinished _, inhabited⟩, below⟩

end Tree

theorem Task.Follows.starts {now : Instant} {task next : Task} {world after : World}
    {answer : Except Halt Unit} (follows : Follows now task world answer next after)
    (answered : Answered answer) (waiting : (Tree.task task).Waiting) :
    (Tree.task task).Starts world after := by
  obtain ⟨checked, uninvoked, -⟩ := Tree.every_task.mp waiting
  have named : task.name ∈ (Tree.task task).names := List.mem_singleton_self _
  -- Nothing was invoked before, so an attempt that begins starts a build of its own.
  have begun : ∀ {found begun : Task} {there after : World}, Found task world found there →
      Begun now found there begun after → (Tree.task task).Starts world after := by
    intro found begun there after finds begins
    have standing := finds.standing
    cases begins with
    | going invoked => cases (standing ▸ uninvoked).symm.trans invoked
    | joins _ unchecked =>
        have checked' : found.isUnchecked = false := by
          unfold isUnchecked at checked ⊢
          rwa [standing]
        cases checked'.symm.trans unchecked
    | starts _ _ invoked =>
        refine ⟨task.name, named, .inr ?_⟩
        rw [← finds.buildsOf, ← finds.attempted.name]
        rw [Runner.length_invoked invoked, if_pos rfl]
        exact Nat.lt_succ_self _
  cases follows with
  | missing _ _ missing => exact ⟨task.name, named, .inl missing⟩
  | waits finds begins => exact begun finds begins
  | ends finds begins => exact begun finds begins
  | strays _ _ _ strays => cases answered; cases strays
  | lost => cases answered

namespace Branch

/-- The visits that begin with what they come to. -/
def startCourse : Course Tree := fun child world answer _ after =>
  Answered answer → child.Waiting → child.Starts world after

/-- A pass that comes to its end begins with every child on its way that waits. -/
theorem Pass.starts {now : Instant} {indices : List Nat} {branch last : Branch}
    {world after : World} {status final : Checking}
    (pass : Pass (fun child world answer next after =>
        Tree.Sweeps now child world answer next after ∧ startCourse child world answer next after)
      indices branch world status (.ok final) last after)
    {place : Nat} (onWay : place ∈ indices) {child : Tree} (at' : branch.2[place]? = some child)
    (waiting : child.Waiting) : child.Starts world after := by
  -- By induction on the pass: the child is the next one to be visited, or an answer to the failure
  -- of another one leaves it waiting.
  have grows : ∀ {rest : List Nat} {branch last : Branch} {world after : World} {status : Checking}
      {answer : Except Halt Checking},
      Pass (fun child world answer next after =>
        Tree.Sweeps now child world answer next after ∧ startCourse child world answer next after)
        rest branch world status answer last after → world.Grows after :=
    fun pass => pass.grows fun visit => visit.1.grows
  generalize ended : Except.ok final = answer at pass
  induction pass generalizing child with
  | done => cases onWay
  | skips finished _ ih =>
      rcases List.mem_cons.mp onWay with same | later
      · subst same
        cases waiting.unfinished.symm.trans (finished child at')
      · exact ih later at' waiting ended
  | @passes index rest branch _ world there after _ _ old next here _ visit onward ih =>
      by_cases same : place = index
      · subst same
        cases here.symm.trans at'
        exact (visit.2 .ok waiting).wider (.refl _) (grows onward)
      · have kept : ((branch.put index next).cleared next).2[place]? = some child :=
          (List.getElem?_set_ne (Ne.symm same)).trans at'
        have later := (List.mem_cons.mp onWay).resolve_left same
        exact (ih later kept waiting ended).wider visit.1.grows (.refl _)
  | @fails index rest branch answered _ world there after _ _ old next failure _ here _ visit answers
      onward ih =>
      by_cases same : place = index
      · subst same
        cases here.symm.trans at'
        exact (visit.2 (.failed failure) waiting).wider (.refl _) (grows onward)
      · have placed := getElem?_put_self here next
        have kept : (branch.put index next).2[place]? = some child :=
          (List.getElem?_set_ne (Ne.symm same)).trans at'
        have later := (List.mem_cons.mp onWay).resolve_left same
        obtain ⟨new, kept', same' | ⟨scope, same'⟩ | ⟨same', -⟩⟩ := answers.children placed kept
        · subst same'
          exact (ih later kept' waiting ended).wider visit.1.grows (.refl _)
        · subst same'
          have starts := ih later kept' (waiting.prepare scope) ended
          rw [Tree.starts_of_names (Tree.names_of_layout (Tree.blank_prepare scope child))] at starts
          exact starts.wider visit.1.grows (.refl _)
        · exact absurd same' same
  | breaks => cases ended
  | halts => cases ended

end Branch

/-- A sweep begins with a tree that waits. -/
theorem Tree.Sweeps.starts {now : Instant} {tree next : Tree} {world after : World}
    {answer : Except Halt Unit} (sweeps : Tree.Sweeps now tree world answer next after)
    (answered : Answered answer) (waiting : tree.Waiting) : tree.Starts world after := by
  refine sweeps.rule (p := Branch.startCourse) ?_ ?_ answered waiting
  · exact fun follows => follows.starts
  · intro group children world answer group' children' after sweeps answered waiting
    obtain ⟨⟨-, inhabited⟩, below⟩ := every_branch.mp waiting
    cases sweeps with
    | halts pass => cases answered; exact absurd rfl (pass.hard _)
    | closes pass =>
        obtain ⟨child, place⟩ : ∃ child, children[0]? = some child :=
          ⟨_, List.getElem?_eq_getElem (List.length_pos_iff.mpr inhabited)⟩
        have onWay : 0 ∈ List.range (Branch.begun (group, children) now).span :=
          List.mem_range.mpr (Branch.span_pos inhabited)
        obtain ⟨name, named, starts⟩ := pass.starts onWay place (below child (List.mem_of_getElem? place))
        exact ⟨name, mem_names_branch.mpr ⟨child, List.mem_of_getElem? place, named⟩, starts⟩

/-! ## Giving up the child at work -/

namespace Tree

/-- The node and what lies below it were not visited. -/
def Untouched (node last : Tree) : Prop :=
  ∃ turns, node.Lives turns last ∧ ∀ turn ∈ turns, turn.isVisit = false

theorem Untouched.refl (node : Tree) : node.Untouched node := ⟨[], .rests, fun _ => nofun⟩

theorem Untouched.trans {node middle last : Tree} (first : node.Untouched middle)
    (second : middle.Untouched last) : node.Untouched last := by
  obtain ⟨turns, lives, calm⟩ := first
  obtain ⟨more, onward, calm'⟩ := second
  exact ⟨turns ++ more, lives.append onward,
    fun turn member => (List.mem_append.mp member).elim (calm turn) (calm' turn)⟩

theorem untouched_prepare (node : Tree) (scope : Bool) : node.Untouched (node.prepare scope) :=
  ⟨[.prepare scope], .prepared .rests, fun _ member => List.mem_singleton.mp member ▸ rfl⟩

/-- A sweep over a serial group in which the checked child at work fails for good:
it was aborted, or nobody may try it again. -/
inductive GivesUp (now : Instant) (group : Group) (children : List Tree) (world : World) :
    Except Halt Unit → Tree → World → Prop
  | intro {middle left last : Branch} {there after : World} {status : Checking} {child next : Tree}
      {failure : JobFailure} {again : Bool} {answer : Except Halt Unit}
      (serial : group.isSerial)
      (earlier : Branch.Pass (Sweeps now) (List.range group.cursor)
        (Branch.begun (group, children) now) world .finished (.ok status) middle there)
      (here : middle.2[group.cursor]? = some child)
      (visit : Sweeps now child there (failedBy failure) next after)
      (checked : next.standing.isUnchecked = false)
      (spent : failure.isAborted ∨ next.standing.mayTry = false)
      (answers : Branch.Answers (middle.put group.cursor next) group.cursor next failure
        (.ok again) left)
      (closes : Branch.Closes now (left.closed status) status answer last) :
      GivesUp now group children world answer (.branch last.1 last.2) after

/-- The life of a serial group that gives up the child at work. As long as that
leaves nothing to observe, no later child is visited until the next attempt. A
group that is left unfinished begins with every later child that waits. -/
structure Stops (node : Tree) (turns : List Turn) : Prop where
  still : ∀ {earlier middle later now world answer next after last group children},
    turns = earlier ++ .visit now world answer next after :: middle ++ later →
    node.Lives earlier (.branch group children) → next.Lives middle last →
    GivesUp now group children world answer next after →
    (∀ turn ∈ middle, turn.isPrepare = false) → next.standing.isFinished →
    ∀ place child, group.cursor < place → children[place]? = some child →
      ∃ child', last.children[place]? = some child' ∧ child.Untouched child'
  begins : ∀ {earlier later now world answer next after now' world' answer' next' after' group
      children},
    turns = earlier ++ .visit now world answer next after ::
      .visit now' world' answer' next' after' :: later →
    node.Lives earlier (.branch group children) →
    GivesUp now group children world answer next after → Answered answer' →
    ∀ place child, group.cursor < place → next.children[place]? = some child →
      child.Waiting → child.Starts world' after'

end Tree

namespace Branch

theorem Answers.untouched {branch next : Branch} {index : Nat} {child : Tree} {failure : JobFailure}
    {answer : Except Halt Bool} (answers : Answers branch index child failure answer next)
    (here : branch.2[index]? = some child) {place : Nat} (other : place ≠ index) {old : Tree}
    (at' : branch.2[place]? = some old) :
    ∃ new, next.2[place]? = some new ∧ old.Untouched new := by
  obtain ⟨new, kept, rfl | ⟨scope, rfl⟩ | ⟨same, -⟩⟩ := answers.children here at'
  · exact ⟨_, kept, .refl _⟩
  · exact ⟨_, kept, old.untouched_prepare scope⟩
  · exact absurd same other

/-- A pass visits no other children than those on its way. -/
theorem Pass.untouched {course : Course Tree} {indices : List Nat} {branch last : Branch}
    {world after : World} {status : Checking} {answer : Except Halt Checking}
    (pass : Pass course indices branch world status answer last after) {place : Nat}
    (off : place ∉ indices) {child : Tree} (at' : branch.2[place]? = some child) :
    ∃ child', last.2[place]? = some child' ∧ child.Untouched child' := by
  have elsewhere : ∀ {branch : Branch} {index : Nat} {rest : List Nat} {next child : Tree},
      place ∉ index :: rest → branch.2[place]? = some child →
        (branch.put index next).2[place]? = some child := by
    intro branch index rest next child off at'
    exact (List.getElem?_set_ne (Ne.symm (List.ne_of_not_mem_cons off))).trans at'
  induction pass generalizing child with
  | done => exact ⟨child, at', .refl child⟩
  | skips _ _ ih => exact ih (List.not_mem_of_not_mem_cons off) at'
  | passes here _ _ _ ih => exact ih (List.not_mem_of_not_mem_cons off) (elsewhere off at')
  | fails here _ _ answers _ ih =>
      obtain ⟨new, kept, untouched⟩ := answers.untouched (getElem?_put_self here _)
        (List.ne_of_not_mem_cons off) (elsewhere off at')
      obtain ⟨child', last, onward⟩ := ih (List.not_mem_of_not_mem_cons off) kept
      exact ⟨child', last, untouched.trans onward⟩
  | breaks here _ _ answers =>
      exact answers.untouched (getElem?_put_self here _) (List.ne_of_not_mem_cons off) (elsewhere off at')
  | halts => exact ⟨child, elsewhere off at', .refl child⟩

/-- The answer to a checked child that fails for good leaves a serial group. -/
theorem Answers.leaves {branch next : Branch} {index : Nat} {child : Tree} {failure : JobFailure}
    {answer : Except Halt Bool} (answers : Answers branch index child failure answer next)
    (serial : branch.1.isSerial) (checked : child.standing.isUnchecked = false)
    (spent : failure.isAborted ∨ child.standing.mayTry = false) :
    next.1.isSerial ∧ next.1.cursor = next.2.length := by
  have leaving : ∀ branch : Branch, branch.1.isSerial →
      branch.leaving.1.isSerial ∧ branch.leaving.1.cursor = branch.leaving.2.length :=
    fun branch serial => ⟨(Group.isSerial_setCursor _ _).trans serial,
      Group.cursor_setCursor serial _⟩
  have noted : (branch.noted child).1.isSerial := (Group.isSerial_setFailed _ _).trans serial
  have spent' : failure.isAborted = false → child.standing.mayTry = false :=
    fun unaborted => spent.resolve_left (by simp [unaborted])
  cases answers with
  | aborts =>
      have serial' : ((branch.noted child).put index child.finish).group.isSerial := noted
      unfold aborting
      rw [if_pos serial']
      exact leaving _ noted
  | abortsUnchecked _ unchecked => cases checked.symm.trans unchecked
  | stays unaborted tries => cases (spent' unaborted).symm.trans tries
  | retries unaborted tries => cases (spent' unaborted).symm.trans tries
  | overdraws unaborted tries => cases (spent' unaborted).symm.trans tries
  | ends => exact leaving _ noted
  | endsUnchecked _ _ unchecked => cases checked.symm.trans unchecked

/-- A group that was left stays so at the end of its sweep. -/
theorem Closes.left {now : Instant} {branch last : Branch} {status : Checking}
    {answer : Except Halt Unit} (closes : Closes now branch status answer last)
    (serial : branch.1.isSerial) (left : branch.2.length ≤ branch.1.cursor) :
    last.1.isSerial ∧ last.2.length ≤ last.1.cursor := by
  cases closes with
  | pending => exact ⟨serial, left⟩
  | overdue => exact ⟨serial, left⟩
  | fails => exact ⟨serial, left⟩
  | moves _ _ _ more => exact absurd more (by change ¬ branch.1.cursor + 1 < branch.2.length; omega)
  | ends =>
      have serial' : branch.summed.1.isSerial := serial
      refine ⟨(Group.isSerial_setCursor _ _).trans serial', ?_⟩
      unfold moved
      rw [Group.cursor_setCursor serial']
      exact Nat.le_succ_of_le left

end Branch

namespace Tree

/-- Later children were not visited in a sweep that gives up the child at work. -/
theorem GivesUp.untouched {now : Instant} {group : Group} {children : List Tree}
    {world after : World} {answer : Except Halt Unit} {next : Tree}
    (gives : GivesUp now group children world answer next after) {place : Nat}
    (later : group.cursor < place) {child : Tree} (at' : children[place]? = some child) :
    ∃ child', next.children[place]? = some child' ∧ child.Untouched child' := by
  cases gives with
  | @intro middle left last _ _ _ old new _ _ _ _ earlier here _ _ _ answers closes =>
      have off : place ∉ List.range group.cursor :=
        fun member => Nat.lt_asymm later (List.mem_range.mp member)
      obtain ⟨between, kept, untouched⟩ := earlier.untouched off at'
      have other : place ≠ group.cursor := Nat.ne_of_gt later
      obtain ⟨child', kept', onward⟩ := answers.untouched
        (Branch.getElem?_put_self here _) other
        ((List.getElem?_set_ne (Ne.symm other)).trans kept)
      refine ⟨child', ?_, untouched.trans onward⟩
      have same : last.2 = left.2 := closes.children
      exact (congrArg (·[place]?) same).trans kept'

/-- After such a sweep the next one visits all children. -/
theorem GivesUp.left {now : Instant} {group : Group} {children : List Tree} {world after : World}
    {answer : Except Halt Unit} {next : Tree}
    (gives : GivesUp now group children world answer next after) :
    ∃ group' children', next = .branch group' children' ∧ group'.isSerial ∧
      children'.length ≤ group'.cursor := by
  cases gives with
  | @intro middle left last _ _ _ _ _ _ _ _ serial earlier here _ checked spent answers closes =>
      have begun : (Branch.begun (group, children) now).group.isSerial :=
        (Group.isSerial_begun _ _).trans serial
      have serial' : middle.1.isSerial := earlier.isSerial.trans begun
      obtain ⟨serial'', left⟩ := answers.leaves serial' checked spent
      exact ⟨last.1, last.2, rfl, closes.left serial'' (Nat.le_of_eq left.symm)⟩

/-- A life goes on from where its first turns led. -/
theorem Lives.split {earlier later : List Turn} {node last : Tree}
    (lives : Lives node (earlier ++ later) last) :
    ∃ middle, Lives node earlier middle ∧ Lives middle later last := by
  induction earlier generalizing node with
  | nil => exact ⟨node, .rests, lives⟩
  | cons turn earlier ih =>
      cases lives with
      | visited unfinished sweeps onward =>
          obtain ⟨middle, first, second⟩ := ih onward
          exact ⟨middle, .visited unfinished sweeps first, second⟩
      | finished onward =>
          obtain ⟨middle, first, second⟩ := ih onward
          exact ⟨middle, .finished first, second⟩
      | prepared onward =>
          obtain ⟨middle, first, second⟩ := ih onward
          exact ⟨middle, .prepared first, second⟩

theorem Lives.stops {node final : Tree} {turns : List Turn} (lives : node.Lives turns final) :
    node.Stops turns where
  still := by
    intro earlier middle later now world answer next after last group children _ _ rests gives
      unprepared finished place child beyond at'
    obtain ⟨child', kept, untouched⟩ := gives.untouched beyond at'
    have same : last.children = next.children := rests.still unprepared finished
    exact ⟨child', (congrArg (·[place]?) same).trans kept, untouched⟩
  begins := by
    intro earlier later now world answer next after now' world' answer' next' after' group children
      split _ gives answered place child _ at' waiting
    subst split
    -- The sweep after the split begins with what the one before it has left, and reaches the child.
    obtain ⟨middle, -, onward⟩ := lives.split
    obtain ⟨group', children', rfl, serial, left⟩ := gives.left
    cases onward with
    | visited _ _ again =>
        cases again with
        | visited _ sweeps _ =>
            obtain ⟨_, _, -, sweeps⟩ := sweeps.ofBranch
            cases sweeps with
            | halts pass => cases answered; exact absurd rfl (pass.hard _)
            | closes pass =>
                have inside : place < children'.length := (List.getElem?_eq_some_iff.mp at').1
                have begun : (Branch.begun (group', children') now').1.isSerial :=
                  (Group.isSerial_begun _ _).trans serial
                refine Branch.Pass.starts (pass.mono fun visit => ⟨visit, fun answered waiting =>
                  visit.starts answered waiting⟩) (List.mem_range.mpr ?_) at' waiting
                rw [Branch.span_serial begun]
                have reached : place < (group'.begun now').cursor + 1 := by
                  rw [Group.cursor_begun]
                  omega
                exact Nat.lt_min.mpr ⟨reached, inside⟩

end Tree

namespace Flow

/-! ## Lives in a run -/

theorem Looped.becomes {dir : Bool} {limit : Nat} {reads : Instant → Prop} {tree last : Tree}
    {world after : World} {answer : Except Halt Unit}
    (looped : Looped dir limit reads tree world answer last after) : tree.Becomes last := by
  induction looped with
  | settled => exact .refl _
  | again unsettled _ _ sweep _ ih =>
      exact (sweep.becomes (Standing.unfinished unsettled)).trans ih
  | broke unsettled _ _ sweep => exact sweep.becomes (Standing.unfinished unsettled)
  | refused => exact .refl _
  | overrun => exact .refl _
  | unwritten _ unsettled _ _ sweep => exact sweep.becomes (Standing.unfinished unsettled)

theorem Driven.becomes {config : RunConfig} {requireIdle : Bool} {limit : Nat}
    {reads : Instant → Prop} {tree next : Tree} {world after : World}
    {answer : Except Halt BuildResult}
    (driven : Driven config requireIdle limit reads tree world answer next after) :
    ∃ first : Tree, first.blank = tree ∧ first.Becomes next := by
  cases driven with
  | unprepared prepared => exact ⟨next, prepared.2.1, .refl _⟩
  | unwritten prepared => exact ⟨next, prepared.2.1, .refl _⟩
  | unslept prepared => exact ⟨next, prepared.2.1, .refl _⟩
  | looped prepared looped => exact ⟨_, prepared.2.1, looped.becomes⟩

/-- What a run makes of a tree is told by the lives of the nodes that were prepared. -/
theorem Ran.becomes {flow : Flow} {limit : Nat} {reads : Instant → Prop} {world after : World}
    {answer : Except Halt BuildResult} {next : Tree} (fresh : flow.root.IsFresh)
    (ran : Ran flow limit reads world answer next after) :
    ∃ first : Tree, first.blank = flow.root ∧ first.Becomes next := by
  cases ran with
  | unwritten => exact ⟨flow.root, fresh, .refl _⟩
  | idle => exact ⟨flow.root, fresh, .refl _⟩
  | halted driven => exact driven.becomes
  | finished driven => exact driven.becomes
  | raised driven => exact driven.becomes

/-- Two invocations at once, one of them unchecked, and then two more. -/
def abandonedFlow (tries : Nat) : Flow :=
  .ofTree (.ofChildren true (.fresh 0 0 1 1 .normal) [
    .ofChildren false (.fresh 1 1 tries tries .normal) [
      .ofJob (.fresh 2 2 tries tries .normal) "build",
      .ofJob (.fresh 3 2 tries tries .unchecked) "lint"],
    .ofJob (.fresh 4 1 1 1 .normal) "test",
    .ofJob (.fresh 5 1 1 1 .normal) "deploy"])

/-- The unchecked job and the third one fail in the same sweep. -/
def abandonedHost : Host :=
  .ofPlans [
    { name := "build" },
    { name := "lint", execTicks := 3, maxFails := 1 },
    { name := "test", maxFails := 1 },
    { name := "deploy" }]

/-- What a run left of an invocation: how often it was tried, its result, and
whether it may be tried again. -/
def fate (root : Tree) (name : String) : Option (Nat × BuildResult × Bool) :=
  (root.task? name).map fun leaf =>
    (leaf.standing.totalTried, leaf.standing.result, leaf.standing.mayTry)

end Flow

end BuildFlow
