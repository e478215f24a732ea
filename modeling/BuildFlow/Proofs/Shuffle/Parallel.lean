import BuildFlow.Proofs.Shuffle.Serial
/-!
Sweeps over the children of a parallel group in two runs. What the group makes of a child
depends on that child and its jobs alone. So both passes make the same of each child, and
they only collect it in another order.
-/
namespace BuildFlow

/-- What a parallel group makes of one of its children in a sweep. -/
structure Dealt where
  tree : Tree
  checking : Checking
  aborted : Bool

/-- The same is made of two shuffled children. -/
structure Dealt.Alike (dealt dealt' : Dealt) : Prop where
  tree : dealt.tree.Shuffled dealt'.tree
  checking : dealt'.checking = dealt.checking
  aborted : dealt'.aborted = dealt.aborted

/-! ## One child -/

namespace Tree

/-- What becomes of a child that has failed. -/
def rejected (child : Tree) (aborted : Bool) : Dealt :=
  if aborted then ⟨child.finish, .finished, !child.standing.isUnchecked⟩
  else if child.standing.mayTry then
    ⟨child.prepare child.standing.newScope,
      if child.standing.newScope then .finished else .mustCheck, false⟩
  else ⟨child.finish, .finished, false⟩

theorem Shuffled.rejected {child child' : Tree} (shuffled : child.Shuffled child')
    (aborted : Bool) : (child.rejected aborted).Alike (child'.rejected aborted) := by
  have unchecked := shuffled.reads (f := Standing.isUnchecked) fun _ => rfl
  have tries := shuffled.reads (f := Standing.mayTry) fun _ => rfl
  have scope := shuffled.reads (f := Standing.newScope) fun _ => rfl
  unfold Tree.rejected
  rw [unchecked, tries, scope]
  split
  · exact ⟨shuffled.finish, rfl, rfl⟩
  · split
    · exact ⟨shuffled.prepare _, rfl, rfl⟩
    · exact ⟨shuffled.finish, rfl, rfl⟩

/-- How a parallel group deals with a child. -/
inductive Deals (course : Course Tree) (child : Tree) (world : World) : Dealt → World → Prop
  | rests (finished : child.standing.isFinished) :
      Deals course child world ⟨child, .finished, false⟩ world
  | passes {next : Tree} {there : World} (unfinished : child.standing.isFinished = false)
      (visit : course child world (.ok ()) next there) :
      Deals course child world ⟨next, next.standing.propagatedChecking, false⟩ there
  | fails {next : Tree} {there : World} {failure : JobFailure}
      (unfinished : child.standing.isFinished = false)
      (visit : course child world (failedBy failure) next there) :
      Deals course child world (next.rejected failure.isAborted) there

variable {now : Instant} {child child' : Tree} {world world' there there' : World}
  {dealt dealt' : Dealt}

theorem Deals.mono {course wider : Course Tree} (widens : ∀ {child world answer next after},
      course child world answer next after → wider child world answer next after)
    (deals : child.Deals course world dealt there) : child.Deals wider world dealt there := by
  cases deals with
  | rests finished => exact .rests finished
  | passes unfinished visit => exact .passes unfinished (widens visit)
  | fails unfinished visit => exact .fails unfinished (widens visit)

theorem Deals.aside (deals : child.Deals (Sweeps now) world dealt there) {names : List String}
    (other : ∀ name ∈ names, name ∉ child.names) : World.Agree names world there := by
  cases deals with
  | rests => exact .refl names world
  | passes _ visit => exact visit.aside .ok other
  | fails _ visit => exact visit.aside (.failed _) other

/-- Shuffled children are dealt with alike. -/
theorem Deals.twins (deals : child.Deals (Branch.pairCourse now) world dealt there)
    (deals' : child'.Deals (Sweeps now) world' dealt' there') (distinct : child.names.Nodup)
    (shuffled : child.Shuffled child') (agree : World.Agree child.names world world') :
    dealt.Alike dealt' ∧ World.Agree child.names there there' := by
  have done : child'.standing.isFinished = child.standing.isFinished :=
    shuffled.reads (f := Standing.isFinished) fun _ => rfl
  cases deals with
  | rests finished =>
      cases deals' with
      | rests => exact ⟨⟨shuffled, rfl, rfl⟩, agree⟩
      | passes unfinished' => cases unfinished'.symm.trans (done.trans finished)
      | fails unfinished' => cases unfinished'.symm.trans (done.trans finished)
  | passes unfinished visit =>
      cases deals' with
      | rests finished' => cases unfinished.symm.trans (done.symm.trans finished')
      | passes _ visit' =>
          obtain ⟨-, trees, worlds⟩ := visit.2 distinct .ok visit' .ok shuffled agree
          have checking := trees.reads (f := Standing.propagatedChecking) fun _ => rfl
          exact ⟨⟨trees, checking, rfl⟩, worlds⟩
      | fails _ visit' =>
          obtain ⟨answers, -, -⟩ := visit.2 distinct .ok visit' (.failed _) shuffled agree
          cases answers
  | fails unfinished visit =>
      cases deals' with
      | rests finished' => cases unfinished.symm.trans (done.symm.trans finished')
      | passes _ visit' =>
          obtain ⟨answers, -, -⟩ := visit.2 distinct (.failed _) visit' .ok shuffled agree
          cases answers
      | fails _ visit' =>
          obtain ⟨answers, trees, worlds⟩ :=
            visit.2 distinct (.failed _) visit' (.failed _) shuffled agree
          cases answers with
          | failed aborted => exact ⟨aborted ▸ trees.rejected _, worlds⟩

end Tree

/-! ## One place of a group -/

namespace Branch

/-- A parallel group after it has dealt with the child at a place. -/
structure Places (branch : Branch) (index : Nat) (dealt : Dealt) (after : Branch) : Prop where
  children : after.2 = branch.2.set index dealt.tree
  group : after.1.plain = { branch.1 with aborted := branch.1.aborted || dealt.aborted }.plain

theorem setCursor_parallel {group : Group} (parallel : group.isSerial = false) (cursor : Nat) :
    group.setCursor cursor = group := by
  cases discipline : group.discipline with
  | serial => simp [Group.isSerial, discipline] at parallel
  | parallel => simp [Group.setCursor, discipline]

variable {course : Course Tree} {branch after : Branch} {index : Nat} {status next : Checking}

theorem min_finished (status : Checking) : min status .finished = status := by
  cases status <;> rfl

theorem min_mustCheck (status : Checking) : min status .mustCheck = .mustCheck := by
  cases status <;> rfl

theorem Answers.places {child : Tree} {failure : JobFailure} {again : Bool} {answered : Branch}
    (answers : Answers (branch.put index child) index child failure (.ok again) answered)
    (parallel : branch.1.isSerial = false) (status : Checking) :
    Places branch index (child.rejected failure.isAborted) answered ∧
      (if again then .mustCheck else status) =
        min status (child.rejected failure.isAborted).checking := by
  have kind : ((branch.put index child).noted child).1.isSerial = false :=
    (Group.isSerial_setFailed _ _).trans parallel
  have flat : ¬ ((branch.put index child).noted child).1.isSerial := by
    rw [kind]
    exact Bool.false_ne_true
  -- The names of failed children depend on the order, so groups are compared without them.
  have noted : ((branch.put index child).noted child).1.plain =
      { branch.1 with aborted := branch.1.aborted || false }.plain := by
    rw [Bool.or_false]
    exact Group.plain_setFailed _ _
  have replaced : ∀ next : Tree,
      (((branch.put index child).noted child).put index next).2 = branch.2.set index next :=
    fun next => List.set_set ..
  unfold Tree.rejected
  cases answers with
  | aborts aborted checked =>
      rw [if_pos aborted, checked]
      have aborting : (((branch.put index child).noted child).put index child.finish).aborting = _ :=
        if_neg flat
      rw [aborting]
      refine ⟨⟨replaced _, ?_⟩, (min_finished _).symm⟩
      rw [Bool.not_false, Bool.or_true]
      exact Group.plain_aborted (Group.plain_setFailed _ _) true
  | abortsUnchecked aborted unchecked =>
      rw [if_pos aborted, unchecked]
      exact ⟨⟨replaced _, noted⟩, (min_finished _).symm⟩
  -- Only a serial group leaves a failed child as it is.
  | stays _ _ serial => cases parallel.symm.trans serial
  | retries unaborted tries =>
      rw [if_neg (by simp [unaborted]), if_pos tries]
      have retried : ((branch.put index child).noted child).retried index child = _ := if_neg flat
      rw [retried]
      refine ⟨⟨replaced _, noted⟩, ?_⟩
      cases child.standing.newScope
      · exact (min_mustCheck _).symm
      · exact (min_finished _).symm
  | ends unaborted spent =>
      rw [if_neg (by simp [unaborted]), if_neg (by simp [spent])]
      unfold leaving
      rw [setCursor_parallel (by exact kind)]
      exact ⟨⟨replaced _, noted⟩, (min_finished _).symm⟩
  | endsUnchecked unaborted spent =>
      rw [if_neg (by simp [unaborted]), if_neg (by simp [spent])]
      exact ⟨⟨replaced _, noted⟩, (min_finished _).symm⟩

/-- A parallel group deals with the child at each place. -/
theorem Turn.deals {child : Tree} {world there : World}
    (turn : Turn course index branch world status after there next)
    (parallel : branch.1.isSerial = false) (here : branch.2[index]? = some child) :
    ∃ dealt, child.Deals course world dealt there ∧ Places branch index dealt after ∧
      next = min status dealt.checking := by
  cases turn with
  | rests finished =>
      refine ⟨_, .rests (finished child here), ⟨?_, ?_⟩, (min_finished _).symm⟩
      · obtain ⟨inside, rfl⟩ := List.getElem?_eq_some_iff.mp here
        exact (List.set_getElem_self _).symm
      · rw [Bool.or_false]
  | visits at' unfinished visit absorbs =>
      cases here.symm.trans at'
      cases absorbs with
      | passed =>
          refine ⟨_, .passes unfinished visit, ⟨rfl, ?_⟩, rfl⟩
          rw [Bool.or_false]
          exact Group.plain_setFailed _ _
      | failed answers => exact ⟨_, .fails unfinished visit, answers.places parallel status⟩

/-! ## All places -/

/-- The group deals with the child in a world where at most other jobs have changed, and
after that at most other jobs change. -/
def DealsAlone (course : Course Tree) (world after : World) (child : Tree) (dealt : Dealt) : Prop :=
  ∃ there left, World.Agree child.names world there ∧ child.Deals course there dealt left ∧
    World.Agree child.names left after

/-- Shuffled children that are dealt with alone are dealt with alike. -/
theorem DealsAlone.twins {now : Instant} {world world' after after' : World} {child child' : Tree}
    {dealt dealt' : Dealt} (alone : DealsAlone (pairCourse now) world after child dealt)
    (alone' : DealsAlone (Tree.Sweeps now) world' after' child' dealt')
    (distinct : child.names.Nodup) (shuffled : child.Shuffled child')
    (agree : World.Agree child.names world world') :
    dealt.Alike dealt' ∧ World.Agree child.names after after' := by
  obtain ⟨there, left, before, deals, later⟩ := alone
  obtain ⟨there', left', before', deals', later'⟩ := alone'
  have back : ∀ {world other : World}, World.Agree child'.names world other →
      World.Agree child.names world other :=
    fun agree => agree.mono fun name named => shuffled.names.mem_iff.mpr named
  obtain ⟨alike, worlds⟩ :=
    deals.twins deals' distinct shuffled (before.symm.trans (agree.trans (back before')))
  exact ⟨alike, later.symm.trans (worlds.trans (back later'))⟩

/-- A parallel group after it has dealt with all children behind some. -/
structure Collects (branch : Branch) (status : Checking) (done : List Tree) (dealt : List Dealt)
    (last : Branch) (final : Checking) : Prop where
  children : last.2 = done ++ dealt.map Dealt.tree
  group : last.1.plain =
    { branch.1 with aborted := branch.1.aborted || dealt.any Dealt.aborted }.plain
  status : final = (dealt.map Dealt.checking).foldl min status

theorem Collects.cons {middle last : Branch} {done : List Tree} {first : Dealt} {dealt : List Dealt}
    {final : Checking} (places : Places branch index first middle)
    (collects : Collects middle (min status first.checking) (done ++ [first.tree]) dealt last final) :
    Collects branch status done (first :: dealt) last final := by
  constructor
  · rw [collects.children, List.map_cons, List.append_assoc, List.singleton_append]
  · have aborted : middle.1.aborted = (branch.1.aborted || first.aborted) :=
      (congrArg Group.aborted places.group :)
    rw [collects.group, aborted, List.any_cons, ← Bool.or_assoc]
    exact Group.plain_aborted places.group _
  · rw [collects.status, List.map_cons, List.foldl_cons]

theorem Pass.deals {now : Instant}
    (narrows : ∀ {child world answer next there}, course child world answer next there →
      Tree.Sweeps now child world answer next there)
    {todo done : List Tree} {world after : World} {last : Branch} {final : Checking}
    (listed : branch.2 = done ++ todo)
    (pass : Pass course (List.range' done.length todo.length) branch world status (.ok final)
      last after)
    (parallel : branch.1.isSerial = false)
    (apart : todo.Pairwise fun child other => ∀ name ∈ child.names, name ∉ other.names) :
    (∃ dealt, List.Forall₂ (DealsAlone course world after) todo dealt ∧
      Collects branch status done dealt last final) ∧
      ∀ names, (∀ child ∈ todo, ∀ name ∈ names, name ∉ child.names) →
        World.Agree names world after := by
  -- By induction on the children that are still to be visited; those that were visited are in
  -- their places already.
  induction todo generalizing done branch world status with
  | nil =>
      cases pass
      refine ⟨⟨[], .nil, ⟨?_, ?_, rfl⟩⟩, fun names _ => .refl names _⟩
      · rw [listed, List.map_nil]
      · rw [List.any_nil, Bool.or_false]
  | cons child rest ih =>
      obtain ⟨first, later⟩ := List.pairwise_cons.mp apart
      obtain ⟨middle, there, next, turn, onward⟩ := pass.turn
      have here : branch.2[done.length]? = some child := by simp [listed]
      obtain ⟨dealt, deals, places, rfl⟩ := turn.deals parallel here
      have plain := Group.isSerial_of_plain places.group
      have listed' : middle.2 = (done ++ [dealt.tree]) ++ rest := by
        rw [places.children, listed]
        simp
      obtain ⟨⟨others, each, collects⟩, aside⟩ :=
        ih listed' (by simpa using onward) (plain.trans parallel) later
      have apart' : ∀ {names : List String}, (∀ name ∈ names, name ∉ child.names) →
          World.Agree names world there := (deals.mono narrows).aside
      refine ⟨⟨dealt :: others, .cons ?_ ?_, .cons places collects⟩, ?_⟩
      · exact ⟨world, there, .refl _ world, deals, aside child.names first⟩
      · -- The later children find their jobs as they were before this one was visited.
        refine forall₂_of_mem each fun other member image _ alone => ?_
        obtain ⟨before, left, agree, deals, kept⟩ := alone
        refine ⟨before, left, .trans (apart' ?_) agree, deals, kept⟩
        exact fun name named inside => first other member name inside named
      · intro names outside
        refine (apart' (outside child List.mem_cons_self)).trans (aside names ?_)
        exact fun other member => outside other (List.mem_cons_of_mem child member)

instance : RightCommutative (min : Checking → Checking → Checking) where
  right_comm status first second := by cases status <;> cases first <;> cases second <;> rfl

/-- What is collected in another order comes to the same. -/
theorem Collects.twins {branch branch' last last' : Branch} {status final final' : Checking}
    {dealt image dealt' : List Dealt} (collects : Collects branch status [] dealt last final)
    (collects' : Collects branch' status [] dealt' last' final') (parallel : branch.1.isSerial = false)
    (same : branch'.1.plain = branch.1.plain) (alike : List.Forall₂ Dealt.Alike dealt image)
    (order : image.Perm dealt') :
    Tree.Shuffled (.branch last.1 last.2) (.branch last'.1 last'.2) ∧ final' = final := by
  have flags := forall₂_map_eq alike fun _ _ here => here.aborted
  have aborted : dealt'.any Dealt.aborted = dealt.any Dealt.aborted := by
    rw [← order.any_eq, ← Function.id_comp Dealt.aborted, ← List.any_map, flags, List.any_map]
  have checking := forall₂_map_eq alike fun _ _ here => here.checking
  constructor
  · rw [collects.children, collects'.children, List.nil_append, List.nil_append]
    refine .branch ?_ ?_ (order.map Dealt.tree) ?_
    · rw [collects.group, collects'.group, aborted, Group.aborted_of_plain same]
      exact Group.plain_aborted same _
    · rw [List.forall₂_map_left_iff, List.forall₂_map_right_iff]
      exact alike.imp fun _ _ here => here.tree
    · intro serial
      have kind := (Group.isSerial_of_plain collects.group).trans parallel
      cases kind.symm.trans serial
  · rw [collects.status, collects'.status, ← checking]
    exact ((order.map Dealt.checking).foldl_eq _).symm

/-- Both passes over shuffled parallel groups come to the same. -/
theorem Pass.shuffles {now : Instant} {branch branch' last last' : Branch}
    {world world' after after' : World} {status final final' : Checking}
    (pass : Pass (pairCourse now) (List.range branch.2.length) branch world status (.ok final)
      last after)
    (pass' : Pass (Tree.Sweeps now) (List.range branch'.2.length) branch' world' status (.ok final')
      last' after')
    (parallel : branch.1.isSerial = false)
    (shuffled : Tree.Shuffled (.branch branch.1 branch.2) (.branch branch'.1 branch'.2))
    (distinct : (Tree.branch branch.1 branch.2).names.Nodup)
    (agree : World.Agree (Tree.branch branch.1 branch.2).names world world') :
    Tree.Shuffled (.branch last.1 last.2) (.branch last'.1 last'.2) ∧ final' = final ∧
      World.Agree (Tree.branch branch.1 branch.2).names after after' := by
  have apart : ∀ {group : Group} {children : List Tree}, (Tree.branch group children).names.Nodup →
      children.Pairwise fun child other => ∀ name ∈ child.names, name ∉ other.names := by
    intro group children distinct
    rw [Tree.names_branch, List.Nodup, List.pairwise_flatMap] at distinct
    exact distinct.2.imp fun different name first second => different name first name second rfl
  have names := shuffled.names
  cases shuffled with
  | branch same each order =>
      rw [List.range_eq_range'] at pass pass'
      have listed : ∀ branch : Branch, branch.2 = [] ++ branch.2 := fun _ => rfl
      have parallel' := (Group.isSerial_of_plain same).trans parallel
      obtain ⟨⟨dealt, alone, collects⟩, aside⟩ :=
        Pass.deals (fun visit => visit.1) (listed branch) pass parallel (apart distinct)
      obtain ⟨⟨dealt', alone', collects'⟩, aside'⟩ :=
        Pass.deals id (listed branch') pass' parallel' (apart (names.nodup_iff.mpr distinct))
      obtain ⟨image, along, order'⟩ := List.perm_comp_forall₂ order alone'
      -- Each child is dealt with alike, and no other child interferes with its jobs.
      obtain ⟨alike, kept⟩ := forall₂_join (P := Dealt.Alike)
          (Q := fun child => World.Agree child.names after after') each alone along <| by
        intro child member child' _ _ shuffled here here'
        apply here.twins here' (Tree.nodup_of_child distinct member) shuffled
        exact agree.mono fun name named => Tree.mem_names_branch.mpr ⟨child, member, named⟩
      obtain ⟨trees, statuses⟩ := collects.twins collects' parallel same alike order'
      -- No pass changes the tick, and each job belongs to one of the children.
      refine ⟨trees, statuses, ?_, fun name named => ?_⟩
      · have still := aside [] fun _ _ _ none => (List.not_mem_nil none).elim
        have still' := aside' [] fun _ _ _ none => (List.not_mem_nil none).elim
        rw [still.tick, still'.tick, agree.tick]
      · obtain ⟨child, member, inside⟩ := Tree.mem_names_branch.mp named
        exact (kept child member).jobs name inside

end Branch

end BuildFlow
