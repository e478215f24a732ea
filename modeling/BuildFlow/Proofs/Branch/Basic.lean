import BuildFlow.Proofs.Task
import BuildFlow.Sweep.Parallel
import BuildFlow.Sweep.Serial
/-!
What one sweep over a group can do, whatever its discipline: the children in
reach are visited in turn, failures among them are answered, and then the group
takes over what its children came to.
-/
namespace BuildFlow

/-- Whether another attempt may follow, in this retry scope or in an outer one. -/
def Standing.mayTry (standing : Standing) : Bool :=
  0 < standing.remainingTries || 0 < standing.remainingTotalTries

/-- Whether the next attempt opens a new retry scope. -/
def Standing.newScope (standing : Standing) : Bool := standing.remainingTries = 0

theorem Standing.mayTry_eq_true {standing : Standing} : standing.mayTry = true ↔
    0 < standing.remainingTries ∨ 0 < standing.remainingTotalTries := by
  simp only [mayTry, Bool.or_eq_true, decide_eq_true_eq]

theorem Standing.mayTry_eq_false {standing : Standing} : standing.mayTry = false ↔
    standing.remainingTries = 0 ∧ standing.remainingTotalTries = 0 := by
  rw [← Bool.not_eq_true, mayTry_eq_true]
  omega

theorem Standing.newScope_eq_true {standing : Standing} : standing.newScope = true ↔
    standing.remainingTries = 0 := decide_eq_true_iff

theorem Standing.newScope_eq_false {standing : Standing} : standing.newScope = false ↔
    0 < standing.remainingTries := by
  rw [← Bool.not_eq_true, newScope_eq_true, Nat.pos_iff_ne_zero]

/-- A group whose attempt has started. -/
def Group.started (group : Group) (now : Instant) : Group :=
  if group.standing.isInvoked then group
  else { group with standing := { group.standing with invokedAt := now } }

/-- A group when a sweep has reached it. -/
def Group.begun (group : Group) (now : Instant) : Group :=
  if group.reportInterval ≤ now.secondsSince group.lastReport then
    { group.started now with lastReport := now }
  else group.started now

@[simp] theorem Group.isSerial_setFailed (group : Group) (failed : Table Nat String) :
    (group.setFailed failed).isSerial = group.isSerial := by
  cases discipline : group.discipline <;> simp [setFailed, isSerial, discipline]

@[simp] theorem Group.isSerial_setCursor (group : Group) (cursor : Nat) :
    (group.setCursor cursor).isSerial = group.isSerial := by
  cases discipline : group.discipline <;> simp [setCursor, isSerial, discipline]

theorem Group.setCursor_standing (group : Group) (standing : Standing) (cursor : Nat) :
    { group with standing }.setCursor cursor = { group.setCursor cursor with standing } := by
  cases discipline : group.discipline <;> simp [setCursor, discipline]

@[simp] theorem Group.standing_setFailed (group : Group) (failed : Table Nat String) :
    (group.setFailed failed).standing = group.standing := by
  cases discipline : group.discipline <;> simp [setFailed, discipline]

@[simp] theorem Group.standing_setCursor (group : Group) (cursor : Nat) :
    (group.setCursor cursor).standing = group.standing := by
  cases discipline : group.discipline <;> simp [setCursor, discipline]

/-- A sweep that reaches a group moves the times noted there and nothing else. -/
theorem Group.begun_eq (group : Group) (now : Instant) : ∃ invokedAt lastReport,
    group.begun now =
      { group with standing := { group.standing with invokedAt }, lastReport } := by
  unfold begun started
  split <;> split <;> exact ⟨_, _, rfl⟩

theorem Group.standing_begun (group : Group) (now : Instant) :
    ∃ time, (group.begun now).standing = { group.standing with invokedAt := time } := by
  obtain ⟨time, _, same⟩ := group.begun_eq now
  exact ⟨time, congrArg Group.standing same⟩

@[simp] theorem Group.isSerial_begun (group : Group) (now : Instant) :
    (group.begun now).isSerial = group.isSerial := by
  obtain ⟨_, _, same⟩ := group.begun_eq now
  rw [same]
  rfl

@[simp] theorem Group.cursor_setFailed (group : Group) (failed : Table Nat String) :
    (group.setFailed failed).cursor = group.cursor := by
  cases discipline : group.discipline <;> simp [setFailed, cursor, discipline]

@[simp] theorem Group.timeout_setFailed (group : Group) (failed : Table Nat String) :
    (group.setFailed failed).timeout = group.timeout := by
  cases discipline : group.discipline <;> simp [setFailed, discipline]

@[simp] theorem Group.timeout_setCursor (group : Group) (cursor : Nat) :
    (group.setCursor cursor).timeout = group.timeout := by
  cases discipline : group.discipline <;> simp [setCursor, discipline]

theorem Group.cursor_setCursor {group : Group} (serial : group.isSerial) (cursor : Nat) :
    (group.setCursor cursor).cursor = cursor := by
  cases discipline : group.discipline with
  | serial => simp [setCursor, Group.cursor, discipline]
  | parallel => simp [isSerial, discipline] at serial

@[simp] theorem Group.cursor_begun (group : Group) (now : Instant) :
    (group.begun now).cursor = group.cursor := by
  obtain ⟨_, _, same⟩ := group.begun_eq now
  rw [same]
  rfl

@[simp] theorem Group.timeout_begun (group : Group) (now : Instant) :
    (group.begun now).timeout = group.timeout := by
  obtain ⟨_, _, same⟩ := group.begun_eq now
  rw [same]

theorem Group.cursor_prepare (group : Group) (scope : Bool) :
    (group.prepare scope).cursor = 0 := by
  cases discipline : group.discipline <;> simp [prepare, setCursor, cursor, discipline]

namespace Tree

@[simp] theorem height_prepare (scope : Bool) (tree : Tree) :
    (tree.prepare scope).height = tree.height := by
  cases tree <;> simp [prepare, height]

@[simp] theorem height_finish (tree : Tree) : tree.finish.height = tree.height := by
  cases tree <;> simp [finish, setStanding, height]

/-- The children in reach are those at the places before it. -/
theorem mem_take_iff {children : List Tree} {reach : Nat} {child : Tree} :
    child ∈ children.take reach ↔ ∃ place, place < reach ∧ children[place]? = some child := by
  constructor
  · intro member
    obtain ⟨place, at'⟩ := List.mem_iff_getElem?.mp member
    rw [List.getElem?_take] at at'
    split at at'
    · next before => exact ⟨place, before, at'⟩
    · cases at'
  · rintro ⟨place, before, at'⟩
    exact List.mem_of_getElem? ((List.getElem?_take_of_lt before).trans at')

end Tree

namespace Branch

open NodeAct Act

/-- How many children a sweep visits. -/
def span (branch : Branch) : Nat :=
  if branch.group.isSerial then branch.reach else branch.children.length

theorem span_serial {branch : Branch} (serial : branch.1.isSerial) :
    branch.span = min (branch.1.cursor + 1) branch.2.length :=
  if_pos serial

theorem span_parallel {branch : Branch} (parallel : branch.1.isSerial = false) :
    branch.span = branch.2.length :=
  if_neg (by rw [group, parallel]; exact Bool.false_ne_true)

/-- A sweep over a serial group goes no further than its cursor. -/
theorem le_cursor_of_mem_range {branch : Branch} (serial : branch.1.isSerial) {index : Nat}
    (member : index ∈ List.range branch.span) : index ≤ branch.1.cursor := by
  have inside := List.mem_range.mp member
  rw [span_serial serial] at inside
  exact Nat.le_of_lt_succ (Nat.lt_min.mp inside).1

theorem span_eq {branch last : Branch} (serial : last.1.isSerial = branch.1.isSerial)
    (cursor : last.1.cursor = branch.1.cursor) (length : last.2.length = branch.2.length) :
    last.span = branch.span := by
  unfold span reach group children
  rw [serial, cursor, length]

theorem span_pos {branch : Branch} (inhabited : branch.2 ≠ []) : 0 < branch.span := by
  have some' := List.length_pos_iff.mpr inhabited
  unfold span reach
  split
  · exact Nat.lt_min.mpr ⟨Nat.succ_pos _, some'⟩
  · exact some'

def begun (branch : Branch) (now : Instant) : Branch := (branch.1.begun now, branch.2)

def put (branch : Branch) (index : Nat) (child : Tree) : Branch :=
  (branch.1, branch.2.set index child)

theorem getElem?_put_self {branch : Branch} {index : Nat} {child : Tree}
    (here : branch.2[index]? = some child) (next : Tree) :
    (branch.put index next).2[index]? = some next :=
  List.getElem?_set_self (List.getElem?_eq_some_iff.mp here).1

/-- Each child after a visit is the visited one or was there before. -/
theorem getElem?_put {branch : Branch} {index i : Nat} {next child : Tree}
    (at' : (branch.put index next).2[i]? = some child) :
    i = index ∧ child = next ∨ i ≠ index ∧ branch.2[i]? = some child := by
  change (branch.2.set index next)[i]? = some child at at'
  rw [List.getElem?_set] at at'
  split at at'
  · next same =>
      split at at'
      · cases at'
        exact .inl ⟨same.symm, rfl⟩
      · cases at'
  · next other => exact .inr ⟨fun same => other same.symm, at'⟩

/-! ## Answers to a failure -/

/-- A parallel group keeps the child among the failed ones. -/
def noted (branch : Branch) (child : Tree) : Branch :=
  (branch.1.setFailed (branch.1.failed.insert child.standing.id child.sequence), branch.2)

def cleared (branch : Branch) (child : Tree) : Branch :=
  (branch.1.setFailed (branch.1.failed.erase child.standing.id), branch.2)

/-- No later child is visited before the next attempt. -/
def leaving (branch : Branch) : Branch := (branch.1.setCursor branch.2.length, branch.2)

def aborting (branch : Branch) : Branch :=
  if branch.group.isSerial then
    leaving ({ branch.1 with aborted := true, standing := branch.1.standing.exhaust }, branch.2)
  else ({ branch.1 with aborted := true }, branch.2)

/-- A new attempt after a failure: of all children in reach, or of the child alone. -/
def retried (branch : Branch) (index : Nat) (child : Tree) : Branch :=
  if branch.group.isSerial then
    (branch.1.setCursor 0,
      (branch.2.take branch.reach).map (Tree.prepare child.standing.newScope) ++
        branch.2.drop branch.reach)
  else branch.put index (child.prepare child.standing.newScope)

theorem standing_retried (branch : Branch) (index : Nat) (child : Tree) :
    (branch.retried index child).1.standing = branch.1.standing := by
  unfold retried
  split
  · exact Group.standing_setCursor _ _
  · rfl

theorem isSerial_retried (branch : Branch) (index : Nat) (child : Tree) :
    (branch.retried index child).1.isSerial = branch.1.isSerial := by
  unfold retried
  split
  · exact Group.isSerial_setCursor _ _
  · rfl

theorem cursor_retried {branch : Branch} (serial : branch.1.isSerial) (index : Nat)
    (child : Tree) : (branch.retried index child).1.cursor = 0 := by
  unfold retried
  rw [if_pos (by exact serial)]
  exact Group.cursor_setCursor serial 0

/-- After a new attempt of a child at the cursor, or of a child of a parallel group,
there are that child, the others as they were, and those before it prepared anew. -/
theorem mem_retried {branch : Branch} {index : Nat} {child failed : Tree}
    (here : branch.2[index]? = some child)
    (atWork : branch.1.isSerial → index = branch.1.cursor) {other : Tree}
    (member : other ∈ ((branch.put index failed).retried index failed).2) :
    other = failed.prepare failed.standing.newScope ∨
      (∃ place, place ≠ index ∧ branch.2[place]? = some other) ∨
      branch.1.isSerial ∧ ∃ old ∈ branch.2.take branch.1.cursor, ∃ place, place ≠ index ∧
        branch.2[place]? = some old ∧ other = old.prepare failed.standing.newScope := by
  unfold retried at member
  split at member
  · next serial =>
      have atWork := atWork serial
      have inside : index < (branch.2.set index failed).length :=
        (List.length_set ..).symm ▸ (List.getElem?_eq_some_iff.mp here).1
      have reach : index < (branch.put index failed).reach :=
        Nat.lt_min.mpr ⟨Nat.lt_succ_of_le (Nat.le_of_eq atWork), inside⟩
      -- A serial group prepares all children up to the cursor, the visited one among them.
      rcases List.mem_append.mp member with restarted | behind
      · obtain ⟨old, among, rfl⟩ := List.mem_map.mp restarted
        obtain ⟨place, within, at'⟩ := Tree.mem_take_iff.mp among
        rcases getElem?_put at' with ⟨-, rfl⟩ | ⟨different, at'⟩
        · exact .inl rfl
        · have within : place < branch.1.cursor + 1 := (Nat.lt_min.mp within).1
          have before : place < branch.1.cursor := by omega
          exact .inr (.inr ⟨serial, old, Tree.mem_take_iff.mpr ⟨place, before, at'⟩, place,
            different, at', rfl⟩)
      · obtain ⟨place, at'⟩ := List.mem_iff_getElem?.mp behind
        rw [List.getElem?_drop] at at'
        rcases getElem?_put at' with ⟨same, -⟩ | ⟨different, at'⟩
        · omega
        · exact .inr (.inl ⟨_, different, at'⟩)
  · obtain ⟨place, at'⟩ := List.mem_iff_getElem?.mp member
    rcases getElem?_put at' with ⟨-, rfl⟩ | ⟨different, at'⟩
    · exact .inl rfl
    · rcases getElem?_put at' with ⟨same, -⟩ | ⟨-, at'⟩
      · exact absurd same different
      · exact .inr (.inl ⟨place, different, at'⟩)

theorem getElem?_retried {branch : Branch} {index : Nat} {child failed : Tree}
    (here : branch.2[index]? = some child) (atWork : branch.1.isSerial → index = branch.1.cursor) :
    ((branch.put index failed).retried index failed).2[index]? =
      some (failed.prepare failed.standing.newScope) := by
  have placed := getElem?_put_self here failed
  unfold retried
  split
  · next serial =>
      have inside := (List.getElem?_eq_some_iff.mp placed).1
      have reached : index < (branch.put index failed).reach :=
        Nat.lt_min.mpr ⟨Nat.lt_succ_of_le (Nat.le_of_eq (atWork serial)), inside⟩
      refine (List.getElem?_append_left ?_).trans ?_
      · rw [List.length_map, List.length_take]
        exact Nat.lt_min.mpr ⟨reached, inside⟩
      · rw [List.getElem?_map, List.getElem?_take_of_lt reached, placed]
        rfl
  · exact getElem?_put_self placed _

/-- Whether the counts of the new attempt stay below their bound. -/
def retriable (branch : Branch) (child : Tree) : Bool :=
  if branch.group.isSerial then
    (branch.2.take branch.reach).all fun child' => child'.canPrepare child.standing.newScope
  else child.canPrepare child.standing.newScope

/-- How a group answers the failure of a child. -/
inductive Answers (branch : Branch) (index : Nat) (child : Tree) (failure : JobFailure) :
    Except Halt Bool → Branch → Prop
  | aborts (aborted : failure.isAborted) (checked : child.standing.isUnchecked = false) :
      Answers branch index child failure (.ok false)
        ((branch.noted child).put index child.finish).aborting
  | abortsUnchecked (aborted : failure.isAborted) (unchecked : child.standing.isUnchecked) :
      Answers branch index child failure (.ok false)
        ((branch.noted child).put index child.finish)
  | stays (unaborted : failure.isAborted = false) (tries : child.standing.mayTry)
      (serial : branch.group.isSerial) (abnormal : child.standing.propagation ≠ .normal) :
      Answers branch index child failure (.ok false) (branch.noted child)
  | retries (unaborted : failure.isAborted = false) (tries : child.standing.mayTry)
      (normal : branch.group.isSerial → child.standing.propagation = .normal)
      (fits : (branch.noted child).retriable child) :
      Answers branch index child failure (.ok !child.standing.newScope)
        ((branch.noted child).retried index child)
  | overdraws (unaborted : failure.isAborted = false) (tries : child.standing.mayTry)
      (normal : branch.group.isSerial → child.standing.propagation = .normal)
      (overdrawn : (branch.noted child).retriable child = false) :
      Answers branch index child failure (.error (.broken .tries)) (branch.noted child)
  | ends (unaborted : failure.isAborted = false) (spent : child.standing.mayTry = false)
      (checked : child.standing.isUnchecked = false) :
      Answers branch index child failure (.ok false)
        ((branch.noted child).put index child.finish).leaving
  | endsUnchecked (unaborted : failure.isAborted = false) (spent : child.standing.mayTry = false)
      (unchecked : child.standing.isUnchecked) :
      Answers branch index child failure (.ok false)
        ((branch.noted child).put index child.finish)

/-- An answer leaves how the group stands alone, or uses up its tries. -/
theorem Answers.standing {branch next : Branch} {index : Nat} {child : Tree}
    {failure : JobFailure} {answer : Except Halt Bool}
    (answers : Answers branch index child failure answer next) :
    next.1.standing = branch.1.standing ∨ next.1.standing = branch.1.standing.exhaust := by
  have noted : (branch.noted child).1.standing = branch.1.standing := Group.standing_setFailed _ _
  cases answers with
  | aborts =>
      unfold aborting
      split
      · refine .inr ((Group.standing_setCursor _ _).trans ?_)
        exact congrArg Standing.exhaust noted
      · exact .inl noted
  | abortsUnchecked => exact .inl noted
  | stays => exact .inl noted
  | retries => exact .inl ((standing_retried _ _ _).trans noted)
  | overdraws => exact .inl noted
  | ends => exact .inl ((Group.standing_setCursor _ _).trans noted)
  | endsUnchecked => exact .inl noted

theorem retried_noted (branch : Branch) (index : Nat) (child : Tree) :
    ((branch.noted child).retried index child).2 = (branch.retried index child).2 := by
  simp only [retried, reach, group, children, noted, Group.isSerial_setFailed,
    Group.cursor_setFailed, put]
  by_cases serial : branch.1.isSerial <;> simp [serial]

/-- What an answer makes of the children. -/
theorem Answers.listed {branch next : Branch} {index : Nat} {child : Tree} {failure : JobFailure}
    {answer : Except Halt Bool} (answers : Answers branch index child failure answer next) :
    next.2 = branch.2 ∨ next.2 = branch.2.set index child.finish ∨
      child.standing.mayTry ∧ next.2 = (branch.retried index child).2 := by
  cases answers with
  | aborts =>
      refine .inr (.inl ?_)
      unfold aborting
      split <;> rfl
  | abortsUnchecked => exact .inr (.inl rfl)
  | stays => exact .inl rfl
  | retries _ tries => exact .inr (.inr ⟨tries, retried_noted branch index child⟩)
  | overdraws => exact .inl rfl
  | ends => exact .inr (.inl rfl)
  | endsUnchecked => exact .inr (.inl rfl)

/-- What holds of all children holds of them after an answer, if it holds of every
new attempt and of the failed child once that is taken for finished. -/
theorem Answers.all {p : Tree → Prop} {branch next : Branch} {index : Nat} {child : Tree}
    {failure : JobFailure} {answer : Except Halt Bool}
    (answers : Answers branch index child failure answer next)
    (holds : ∀ other ∈ branch.2, p other) (failed : p child) (finished : p child.finish)
    (prepares : ∀ other scope, p other → p (other.prepare scope)) : ∀ other ∈ next.2, p other := by
  have put : ∀ new : Tree, p new → ∀ other ∈ branch.2.set index new, p other := by
    intro new new' other member
    rcases List.mem_or_eq_of_mem_set member with old | same
    · exact holds other old
    · exact same ▸ new'
  rcases answers.listed with same | same | ⟨-, same⟩ <;> rw [same]
  · exact holds
  · exact put _ finished
  · unfold retried
    split
    · intro other member
      rcases List.mem_append.mp member with prepared | kept
      · obtain ⟨old, member, same⟩ := List.mem_map.mp prepared
        exact same ▸ prepares old _ (holds old (List.mem_of_mem_take member))
      · exact holds other (List.mem_of_mem_drop kept)
    · exact put _ (prepares child _ failed)

/-! ## A pass over the children -/

/-- Visits to the children at some places. The status is the least that was
reported so far. -/
inductive Pass (course : Course Tree) :
    List Nat → Branch → World → Checking → Except Halt Checking → Branch → World → Prop
  | done {branch : Branch} {world : World} {status : Checking} :
      Pass course [] branch world status (.ok status) branch world
  | skips {index : Nat} {rest : List Nat} {branch last : Branch} {world after : World}
      {status : Checking} {answer : Except Halt Checking}
      (finished : ∀ child, branch.2[index]? = some child → child.standing.isFinished)
      (onward : Pass course rest branch world status answer last after) :
      Pass course (index :: rest) branch world status answer last after
  | passes {index : Nat} {rest : List Nat} {branch last : Branch} {world there after : World}
      {status : Checking} {answer : Except Halt Checking} {child next : Tree}
      (here : branch.2[index]? = some child) (unfinished : child.standing.isFinished = false)
      (visit : course child world (.ok ()) next there)
      (onward : Pass course rest ((branch.put index next).cleared next) there
        (min status next.standing.propagatedChecking) answer last after) :
      Pass course (index :: rest) branch world status answer last after
  | fails {index : Nat} {rest : List Nat} {branch answered last : Branch}
      {world there after : World} {status : Checking} {answer : Except Halt Checking}
      {child next : Tree} {failure : JobFailure} {again : Bool}
      (here : branch.2[index]? = some child) (unfinished : child.standing.isFinished = false)
      (visit : course child world (failedBy failure) next there)
      (answers : Answers (branch.put index next) index next failure (.ok again) answered)
      (onward : Pass course rest answered there (if again then .mustCheck else status) answer
        last after) :
      Pass course (index :: rest) branch world status answer last after
  | breaks {index : Nat} {rest : List Nat} {branch last : Branch} {world after : World}
      {status : Checking} {child next : Tree} {failure : JobFailure} {halt : Halt}
      (here : branch.2[index]? = some child) (unfinished : child.standing.isFinished = false)
      (visit : course child world (failedBy failure) next after)
      (answers : Answers (branch.put index next) index next failure (.error halt) last) :
      Pass course (index :: rest) branch world status (.error halt) last after
  | halts {index : Nat} {rest : List Nat} {branch : Branch} {world after : World}
      {status : Checking} {child next : Tree} {halt : Halt}
      (here : branch.2[index]? = some child) (unfinished : child.standing.isFinished = false)
      (visit : course child world (.error halt) next after)
      (hard : ∀ failure, halt ≠ .error (.failed failure)) :
      Pass course (index :: rest) branch world status (.error halt) (branch.put index next) after

/-! ## What the children come to -/

/-- Takes the status of a pass. An aborted parallel group has no tries left. -/
def closed (branch : Branch) (status : Checking) : Branch :=
  let standing :=
    if branch.group.isSerial = false ∧ branch.group.aborted then branch.group.standing.exhaust
    else branch.group.standing
  ({ branch.1 with standing := { standing with checking := status } }, branch.2)

/-- Takes the result of the children in reach. -/
def summed (branch : Branch) : Branch :=
  let result := branch.aggregate branch.span
  ({ branch.1 with standing := { branch.1.standing with result } }, branch.2)

def moved (branch : Branch) : Branch :=
  (branch.1.setCursor (branch.group.cursor + 1), branch.2)

theorem standing_moved (branch : Branch) : branch.moved.1.standing = branch.1.standing :=
  Group.standing_setCursor _ _

/-- Goes on with the next child. -/
def waiting (branch : Branch) : Branch :=
  ({ branch.1 with
      standing := { branch.1.standing with checking := .mustCheck, result := .unknown } },
    branch.2)

theorem isPending_iff {status : Checking} {branch : Branch} :
    isPending status branch ↔ status = .mustCheck ∨ branch.1.standing.result ≠ .unknown := by
  rw [isPending, Bool.or_eq_true, decide_eq_true_iff]
  exact or_congr_right decide_eq_true_iff

theorem settled_iff {status : Checking} {branch : Branch} :
    isPending status branch = false ↔
      status ≠ .mustCheck ∧ branch.1.standing.result = .unknown := by
  rw [← Bool.not_eq_true, isPending_iff, not_or, Decidable.not_not]

/-- How a sweep over a group ends after a pass. -/
inductive Closes (now : Instant) (branch : Branch) (status : Checking) :
    Except Halt Unit → Branch → Prop
  | pending (pending : isPending status branch) (inTime : isOverdue branch.group now = false) :
      Closes now branch status (.ok ()) branch
  | overdue (pending : isPending status branch) (overdue : isOverdue branch.group now)
      {flow elapsed : String} {unfinished : List String} {propagation : Propagation} :
      Closes now branch status (.error (.error (.timeout flow elapsed unfinished propagation)))
        branch
  | fails (settled : isPending status branch = false)
      (failure : (branch.aggregate branch.span).isFailure) {reason : JobFailure}
      (aborted : reason.isAborted = branch.group.aborted) :
      Closes now branch status (failedBy reason) branch.summed
  | moves (settled : isPending status branch = false)
      (fine : (branch.aggregate branch.span).isFailure = false)
      (serial : branch.group.isSerial) (more : branch.group.cursor + 1 < branch.children.length) :
      Closes now branch status (.ok ()) branch.moved.waiting
  | ends (settled : isPending status branch = false)
      (fine : (branch.aggregate branch.span).isFailure = false)
      (last : branch.group.isSerial → branch.children.length ≤ branch.group.cursor + 1) :
      Closes now branch status (.ok ()) branch.summed.moved

theorem Closes.children {now : Instant} {branch last : Branch} {status : Checking}
    {answer : Except Halt Unit} (closes : Closes now branch status answer last) :
    last.2 = branch.2 := by
  cases closes <;> rfl

/-- Where one sweep over a group leads. -/
inductive Sweeps (now : Instant) (course : Course Tree) (branch : Branch) (world : World) :
    Except Halt Unit → Branch → World → Prop
  | halts {last : Branch} {after : World} {halt : Halt}
      (pass : Pass course (List.range (branch.begun now).span) (branch.begun now) world .finished
        (.error halt) last after) :
      Sweeps now course branch world (.error halt) last after
  | closes {passed last : Branch} {after : World} {status : Checking} {answer : Except Halt Unit}
      (pass : Pass course (List.range (branch.begun now).span) (branch.begun now) world .finished
        (.ok status) passed after)
      (closes : Closes now (passed.closed status) status answer last) :
      Sweeps now course branch world answer last after

end Branch

end BuildFlow
