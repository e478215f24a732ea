import BuildFlow.Graph.Export
import BuildFlow.Proofs.Graph.Span
import BuildFlow.Proofs.Tree.Ids
/-!
The links of a graph, part by part of its tree. A serial group consists of its first child and the
group of the others behind it, a parallel group of its first child and the group of the others
beside it. Which invocations can be reached along the links follows by recursion over the tree.
-/
namespace BuildFlow

namespace Tree

def lastIds (tree : Tree) : List Nat := tree.lastTasks.map fun leaf => leaf.standing.id

mutual

/-- The invocations that are linked to what comes before the tree. -/
def firstIds : Tree → List Nat
  | task leaf => [leaf.standing.id]
  | branch group children => if group.isSerial then firstOf children else allFirst children

def firstOf : List Tree → List Nat
  | [] => []
  | child :: _ => child.firstIds

def allFirst : List Tree → List Nat
  | [] => []
  | child :: rest => child.firstIds ++ allFirst rest

end

mutual

/-- Whether what comes after the tree waits for what comes before it. Nobody waits for unchecked
invocations. In a serial group all children have to pass it on, up to the last one that is waited
for. -/
def relays : Tree → Bool
  | task leaf => !leaf.isUnchecked
  | branch group children => if group.isSerial then allRelay children else anyRelays children

def allRelay : List Tree → Bool
  | [] => false
  | child :: rest => child.relays && ((lastOf rest).isEmpty || allRelay rest)

def anyRelays : List Tree → Bool
  | [] => false
  | child :: rest => child.relays || anyRelays rest

end

mutual

/-- The invocations that wait for what comes before the tree, if others may come between. -/
def entered : Tree → List Nat
  | task leaf => [leaf.standing.id]
  | branch group children => if group.isSerial then enteredOf children else allEntered children

def enteredOf : List Tree → List Nat
  | [] => []
  | child :: rest => child.entered ++ if child.relays then enteredOf rest else []

def allEntered : List Tree → List Nat
  | [] => []
  | child :: rest => child.entered ++ allEntered rest

end

mutual

/-- The invocations that what comes after the tree waits for, if others may come between. -/
def awaited : Tree → List Nat
  | task leaf => if leaf.isUnchecked then [] else [leaf.standing.id]
  | branch group children => if group.isSerial then awaitedOf children else allAwaited children

def awaitedOf : List Tree → List Nat
  | [] => []
  | child :: rest =>
      (if (lastOf rest).isEmpty || allRelay rest then child.awaited else []) ++ awaitedOf rest

def allAwaited : List Tree → List Nat
  | [] => []
  | child :: rest => child.awaited ++ allAwaited rest

end

/-- In the children of a serial group, the second waits for the first. -/
def Behind (children : List Tree) (first second : Nat) : Prop :=
  ∃ before child between other after,
    children = before ++ child :: (between ++ other :: after) ∧
      first ∈ child.awaited ∧ (∀ middle ∈ between, middle.relays) ∧ second ∈ other.entered

/-- The second waits for the first in one of the serial groups. -/
def Follows (tree : Tree) (first second : Nat) : Prop :=
  ∃ group children, .branch group children ∈ tree.nodes ∧ group.isSerial ∧
    Behind children first second

end Tree

namespace Graph

/-- Invocations are named by their ids. -/
abbrev Style.numeric (strip : Nat) : Style := ⟨none, strip⟩

def Waits (links : List Link) (first second : Nat) : Prop := ⟨.id first, .id second⟩ ∈ links

theorem waits_append {links more : List Link} {first second : Nat} :
    Waits (links ++ more) first second ↔ Waits links first second ∨ Waits more first second :=
  List.mem_append

/-- The links inside of a tree do not depend on what comes before it. -/
theorem waits_links {strip : Nat} (tree : Tree) (before : List Task) {first second : Nat} :
    Waits ((Style.numeric strip).links tree before) first second ↔
      Waits ((Style.numeric strip).links tree []) first second ∨
        first ∈ before.map (fun leaf => leaf.standing.id) ∧ second ∈ tree.firstIds := by
  induction tree using Tree.consInduction generalizing before with
  | leaf leaf =>
      simp [Style.links, Waits, Style.key, Tree.firstIds, eq_comm, ← exists_and_right, and_assoc]
  | empty group =>
      cases serial : group.isSerial
      · simp [Style.links, Style.parallelLinks, Waits, serial, Tree.firstIds, Tree.allFirst]
      · simp [Style.links, Style.serialLinks, Waits, serial, Tree.firstIds, Tree.firstOf]
  | cons group child rest ih ih' =>
      cases serial : group.isSerial
      · simp only [Style.links, serial, Style.parallelLinks, Tree.firstIds, Tree.allFirst,
          waits_append, List.mem_append, Bool.false_eq_true, if_false] at ih' ⊢
        rw [ih, ih']
        grind
      · simp only [Style.links, serial, Style.serialLinks, Tree.firstIds, Tree.firstOf,
          waits_append, if_true]
        rw [ih]
        grind

end Graph

namespace Tree

open BuildFlow.Graph

def span (strip : Nat) (tree : Tree) : Span where
  inside id := id ∈ tree.taskIds
  first id := id ∈ tree.firstIds
  last id := id ∈ tree.lastIds
  edge := Waits ((Style.numeric strip).links tree [])

variable {group : Group} {child : Tree} {rest : List Tree}

theorem lastOf_isEmpty (serial : group.isSerial) :
    (lastOf rest).isEmpty ↔ ∀ id, id ∉ (branch group rest).lastIds := by
  simp [lastIds, lastTasks, serial, ← List.eq_nil_iff_forall_not_mem]

theorem lastIds_cons (serial : group.isSerial) :
    (branch group (child :: rest)).lastIds =
      if (lastOf rest).isEmpty then child.lastIds else (branch group rest).lastIds := by
  simp only [lastIds, lastTasks, serial, if_true, lastOf]
  cases lastOf rest <;> rfl

theorem joins (strip : Nat) (child : Tree) (rest : List Tree) (serial : group.isSerial) :
    (span strip (.branch group (child :: rest))).Joins (child.span strip)
      (span strip (.branch group rest)) where
  inside := by simp [span, taskIds_cons]
  first := by simp [span, firstIds, firstOf, serial]
  last := by
    intro id
    simp only [span, lastIds_cons serial, ← lastOf_isEmpty serial]
    split
    · next none => simp [none, (lastOf_isEmpty serial).mp none]
    · next some => simp [some]
  edge := by
    intro first second
    have behind : Waits ((Style.numeric strip).links (.branch group rest) child.lastTasks)
        first second ↔ _ := waits_links _ _
    simp only [span, Style.links, serial, if_true, Style.serialLinks, waits_append] at behind ⊢
    rw [behind]
    rfl

theorem lies (strip : Nat) (child : Tree) (rest : List Tree) (parallel : group.isSerial = false) :
    (span strip (.branch group (child :: rest))).Lies (child.span strip)
      (span strip (.branch group rest)) where
  inside := by simp [span, taskIds_cons]
  first := by simp [span, firstIds, allFirst, parallel]
  last := by simp [span, lastIds, lastTasks, allLast, parallel]
  edge := by
    intro first second
    simp only [span, Style.links, parallel, Style.parallelLinks, waits_append,
      Bool.false_eq_true, if_false]

variable {strip : Nat}

theorem still_task {leaf : Task} {id id' : Nat} : ¬ (span strip (.task leaf)).edge id id' := by
  simp [span, Style.links, Waits]

theorem still_empty {id id' : Nat} : ¬ (span strip (.branch group [])).edge id id' := by
  cases serial : group.isSerial <;>
    simp [span, Style.links, Style.serialLinks, Style.parallelLinks, Waits, serial]

theorem first_empty {id : Nat} : ¬ (span strip (.branch group [])).first id := by
  simp [span, firstIds, firstOf, allFirst]

theorem last_empty {id : Nat} : ¬ (span strip (.branch group [])).last id := by
  simp [span, lastIds, lastTasks, lastOf, allLast]

theorem closed_span (strip : Nat) (tree : Tree) : (tree.span strip).Closed := by
  induction tree using consInduction with
  | leaf leaf =>
      refine ⟨id, fun ends => ?_, fun edge => (still_task edge).elim⟩
      simp only [span, lastIds, lastTasks] at ends
      split at ends
      · cases ends
      · exact ends
  | empty group =>
      exact ⟨fun begins => (first_empty begins).elim, fun ends => (last_empty ends).elim,
        fun edge => (still_empty edge).elim⟩
  | cons group child rest closed closed' =>
      cases serial : group.isSerial
      · exact (lies strip child rest serial).closed_whole closed closed'
      · exact (joins strip child rest serial).closed_whole closed closed'

theorem nodup_cons (strip : Nat) (distinct : (branch group (child :: rest)).taskIds.Nodup) :
    child.taskIds.Nodup ∧ (branch group rest).taskIds.Nodup ∧
      (child.span strip).Apart (span strip (.branch group rest)) := by
  rw [taskIds_cons, List.nodup_append] at distinct
  obtain ⟨here, there, apart⟩ := distinct
  exact ⟨here, there, fun inside inside' => apart _ inside _ inside' rfl⟩

theorem leaves_iff (strip : Nat) {tree : Tree} (distinct : tree.taskIds.Nodup) :
    ((tree.span strip).Relays ↔ tree.relays) ∧ ∀ id,
      ((tree.span strip).Leaves id ↔ id ∈ tree.awaited) := by
  induction tree using consInduction with
  | leaf leaf =>
      refine ⟨(Span.relays_of_still still_task).trans ?_,
        fun id => (Span.leaves_of_still still_task).trans ?_⟩
      · cases unchecked : leaf.isUnchecked <;>
          simp [span, firstIds, lastIds, lastTasks, relays, unchecked]
      · cases unchecked : leaf.isUnchecked <;> simp [span, lastIds, lastTasks, awaited, unchecked]
  | empty group =>
      refine ⟨(Span.relays_of_still still_empty).trans ?_,
        fun id => (Span.leaves_of_still still_empty).trans ?_⟩
      · refine iff_of_false (fun ⟨_, _, ends⟩ => last_empty ends) ?_
        simp [relays, allRelay, anyRelays]
      · refine iff_of_false last_empty ?_
        simp [awaited, awaitedOf, allAwaited]
  -- The span of a group is that of its first child put together with that of the others, in the way
  -- of its discipline.
  | cons group child rest ih ih' =>
      obtain ⟨distinct, distinct', apart⟩ := nodup_cons strip distinct
      obtain ⟨relays, leaves⟩ := ih distinct
      obtain ⟨relays', leaves'⟩ := ih' distinct'
      have closed := closed_span strip child
      have closed' := closed_span strip (.branch group rest)
      cases serial : group.isSerial
      · have lies := lies strip child rest serial
        refine ⟨(lies.relays_iff closed closed' apart).trans ?_,
          fun id => (lies.leaves_iff closed closed' apart).trans ?_⟩
        · rw [relays, relays']
          simp [Tree.relays, serial, anyRelays]
        · rw [leaves, leaves']
          simp [awaited, serial, allAwaited]
      · have joins := joins strip child rest serial
        have none : (∀ id, ¬ (span strip (.branch group rest)).last id) ↔ (lastOf rest).isEmpty :=
          (lastOf_isEmpty serial).symm
        refine ⟨(joins.relays_iff closed closed' apart).trans ?_,
          fun id => (joins.leaves_iff closed closed' apart).trans ?_⟩
        · rw [relays, relays', none]
          simp [Tree.relays, serial, allRelay]
        · rw [leaves, leaves', relays', none]
          simp only [awaited, serial, awaitedOf, Tree.relays, if_true, List.mem_append,
            Bool.or_eq_true]
          split
          · next onward => rw [and_iff_right onward, or_comm]
          · next onward => simp only [onward, false_and, or_false, List.not_mem_nil, false_or]

theorem enters_iff (strip : Nat) {tree : Tree} (distinct : tree.taskIds.Nodup) {id : Nat} :
    (tree.span strip).Enters id ↔ id ∈ tree.entered := by
  induction tree using consInduction with
  | leaf leaf => exact Span.enters_of_still still_task
  | empty group =>
      refine (Span.enters_of_still still_empty).trans (iff_of_false first_empty ?_)
      simp [entered, enteredOf, allEntered]
  | cons group child rest ih ih' =>
      obtain ⟨distinct, distinct', apart⟩ := nodup_cons strip distinct
      have closed := closed_span strip child
      have closed' := closed_span strip (.branch group rest)
      cases serial : group.isSerial
      · refine ((lies strip child rest serial).enters_iff closed closed' apart).trans ?_
        rw [ih distinct, ih' distinct']
        simp [entered, serial, allEntered]
      · refine ((joins strip child rest serial).enters_iff closed closed' apart).trans ?_
        rw [ih distinct, ih' distinct', (leaves_iff strip distinct).1]
        simp only [entered, serial, enteredOf, if_true, List.mem_append]
        split
        · next relays => simp [relays]
        · next relays => simp [relays]

theorem mem_enteredOf {children : List Tree} {id : Nat} :
    id ∈ enteredOf children ↔ ∃ between other after, children = between ++ other :: after ∧
      (∀ middle ∈ between, middle.relays) ∧ id ∈ other.entered := by
  induction children with
  | nil => simp [enteredOf]
  | cons child rest ih =>
      rw [enteredOf, List.mem_append]
      constructor
      · rintro (here | later)
        · exact ⟨[], child, rest, rfl, nofun, here⟩
        · split at later
          · next relays =>
              obtain ⟨between, other, after, rfl, relay, here⟩ := ih.mp later
              refine ⟨child :: between, other, after, rfl, ?_, here⟩
              exact List.forall_mem_cons.mpr ⟨relays, relay⟩
          · cases later
      · rintro ⟨between, other, after, same, relay, here⟩
        obtain ⟨rfl, ⟨rfl, rfl⟩⟩ | ⟨between, rfl, rfl⟩ := List.cons_eq_append_iff.mp same
        · exact .inl here
        · obtain ⟨relays, relay⟩ := List.forall_mem_cons.mp relay
          rw [if_pos relays]
          exact .inr (ih.mpr ⟨between, other, after, rfl, relay, here⟩)

theorem behind_cons {first second : Nat} : Behind (child :: rest) first second ↔
    first ∈ child.awaited ∧ second ∈ enteredOf rest ∨ Behind rest first second := by
  constructor
  · rintro ⟨before, other, between, last, after, same, leaves, relay, enters⟩
    obtain ⟨rfl, ⟨rfl, rfl⟩⟩ | ⟨before, rfl, rfl⟩ := List.cons_eq_append_iff.mp same
    · exact .inl ⟨leaves, mem_enteredOf.mpr ⟨between, last, after, rfl, relay, enters⟩⟩
    · exact .inr ⟨before, other, between, last, after, rfl, leaves, relay, enters⟩
  · rintro (⟨leaves, enters⟩ | ⟨before, other, between, last, after, rfl, behind⟩)
    · obtain ⟨between, last, after, rfl, behind⟩ := mem_enteredOf.mp enters
      exact ⟨[], child, between, last, after, rfl, leaves, behind⟩
    · exact ⟨child :: before, other, between, last, after, rfl, behind⟩

theorem follows_branch {children : List Tree} {first second : Nat} :
    (branch group children).Follows first second ↔ group.isSerial ∧ Behind children first second ∨
      ∃ child ∈ children, child.Follows first second := by
  constructor
  · rintro ⟨group', children', inside, behind⟩
    rcases List.mem_cons.mp inside with same | below
    · cases same
      exact .inl behind
    · obtain ⟨child, member, inside⟩ := mem_nodesOf.mp below
      exact .inr ⟨child, member, group', children', inside, behind⟩
  · rintro (behind | ⟨child, member, group', children', inside, behind⟩)
    · exact ⟨group, children, List.mem_cons_self, behind⟩
    · have below := mem_nodesOf.mpr ⟨child, member, inside⟩
      exact ⟨group', children', List.mem_cons_of_mem _ below, behind⟩

theorem not_follows_task {leaf : Task} {first second : Nat} :
    ¬ (Tree.task leaf).Follows first second := by
  rintro ⟨group, children, inside, -⟩
  cases List.mem_singleton.mp inside

theorem not_follows_empty {first second : Nat} : ¬ (branch group []).Follows first second := by
  rw [follows_branch]
  rintro (⟨-, before, child, between, other, after, same, -⟩ | ⟨child, member, -⟩)
  · exact absurd same.symm (by simp)
  · cases member

theorem follows_cons {first second : Nat} :
    (branch group (child :: rest)).Follows first second ↔
      child.Follows first second ∨ (branch group rest).Follows first second ∨
        group.isSerial ∧ first ∈ child.awaited ∧ second ∈ enteredOf rest := by
  rw [follows_branch, follows_branch, behind_cons]
  simp only [List.mem_cons, or_and_right, exists_or, exists_eq_left]
  grind

/-- Which invocations can be reached from which ones along the links of a graph. -/
theorem reaches_span {tree : Tree} (distinct : tree.taskIds.Nodup) {first second : Nat} :
    Relation.TransGen (tree.span strip).edge first second ↔ tree.Follows first second := by
  induction tree using consInduction with
  | leaf leaf => exact iff_of_false (Span.not_reaches_of_still still_task) not_follows_task
  | empty group => exact iff_of_false (Span.not_reaches_of_still still_empty) not_follows_empty
  | cons group child rest ih ih' =>
      obtain ⟨distinct, distinct', apart⟩ := nodup_cons strip distinct
      have closed := closed_span strip child
      have closed' := closed_span strip (.branch group rest)
      rw [follows_cons, ← ih distinct, ← ih' distinct']
      cases serial : group.isSerial
      · refine ((lies strip child rest serial).reaches_iff closed closed' apart).trans ?_
        simp
      · refine ((joins strip child rest serial).reaches_iff closed closed' apart).trans ?_
        rw [(leaves_iff strip distinct).2, enters_iff strip distinct']
        simp [entered, serial]

end Tree

end BuildFlow
