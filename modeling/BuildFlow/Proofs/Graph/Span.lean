import Mathlib.Logic.Relation
/-!
Links between the invocations of a part of a tree, seen from outside. What comes before the part is
linked to its first invocations, and its last ones are linked to what comes after it. So it matters
which invocations can be reached from the first ones, and which ones lead to the last ones.
-/
namespace BuildFlow.Graph

open Relation

structure Span where
  inside : Nat → Prop
  first : Nat → Prop
  last : Nat → Prop
  edge : Nat → Nat → Prop

namespace Span

/-- Nothing of it lies outside. -/
structure Closed (span : Span) : Prop where
  first : ∀ {id}, span.first id → span.inside id
  last : ∀ {id}, span.last id → span.inside id
  edge : ∀ {id id'}, span.edge id id' → span.inside id ∧ span.inside id'

def Apart (left right : Span) : Prop := ∀ {id}, left.inside id → ¬ right.inside id

/-- What waits for the part before it waits for this. -/
def Leaves (span : Span) (id : Nat) : Prop :=
  ∃ last, span.last last ∧ ReflTransGen span.edge id last

/-- This waits for what the part waits for. -/
def Enters (span : Span) (id : Nat) : Prop :=
  ∃ first, span.first first ∧ ReflTransGen span.edge first id

/-- What comes after the part waits for what comes before it. -/
def Relays (span : Span) : Prop := ∃ id, span.first id ∧ span.Leaves id

variable {whole left right span : Span} {id id' : Nat}

theorem Closed.reaches (closed : span.Closed) (path : TransGen span.edge id id') :
    span.inside id ∧ span.inside id' := by
  refine ⟨?_, ?_⟩
  · obtain ⟨_, edge, _⟩ := TransGen.head'_iff.mp path
    exact (closed.edge edge).1
  · obtain ⟨_, _, edge⟩ := TransGen.tail'_iff.mp path
    exact (closed.edge edge).2

theorem Closed.enters (closed : span.Closed) (enters : span.Enters id) : span.inside id := by
  obtain ⟨first, begins, path⟩ := enters
  rcases reflTransGen_iff_eq_or_transGen.mp path with same | path
  · exact same ▸ closed.first begins
  · exact (closed.reaches path).2

theorem Closed.leaves (closed : span.Closed) (leaves : span.Leaves id) : span.inside id := by
  obtain ⟨last, ends, path⟩ := leaves
  rcases reflTransGen_iff_eq_or_transGen.mp path with same | path
  · exact same ▸ closed.last ends
  · exact (closed.reaches path).1

theorem relays_of_enters (enters : span.Enters id) (ends : span.last id) : span.Relays := by
  obtain ⟨first, begins, path⟩ := enters
  exact ⟨first, begins, id, ends, path⟩

/-! ## Parts without links -/

section

variable (still : ∀ {id id'}, ¬ span.edge id id')

include still

theorem not_reaches_of_still : ¬ TransGen span.edge id id' := fun path =>
  let ⟨_, _, edge⟩ := TransGen.tail'_iff.mp path
  still edge

theorem same_of_still (path : ReflTransGen span.edge id id') : id = id' :=
  (reflTransGen_iff_eq_or_transGen.mp path).elim Eq.symm fun path =>
    (not_reaches_of_still still path).elim

theorem enters_of_still : span.Enters id ↔ span.first id :=
  ⟨fun ⟨_, begins, path⟩ => same_of_still still path ▸ begins, fun begins => ⟨id, begins, .refl⟩⟩

theorem leaves_of_still : span.Leaves id ↔ span.last id :=
  ⟨fun ⟨_, ends, path⟩ => same_of_still still path ▸ ends, fun ends => ⟨id, ends, .refl⟩⟩

theorem relays_of_still : span.Relays ↔ ∃ id, span.first id ∧ span.last id :=
  exists_congr fun _ => and_congr_right fun _ => leaves_of_still still

end

/-! ## One part behind another -/

/-- The whole consists of two parts, and the second waits for the first. -/
structure Joins (whole left right : Span) : Prop where
  inside : ∀ {id}, whole.inside id ↔ left.inside id ∨ right.inside id
  first : ∀ {id}, whole.first id ↔ left.first id
  last : ∀ {id}, whole.last id ↔ right.last id ∨ (∀ id, ¬ right.last id) ∧ left.last id
  edge : ∀ {id id'}, whole.edge id id' ↔
    left.edge id id' ∨ right.edge id id' ∨ left.last id ∧ right.first id'

namespace Joins

variable (joins : Joins whole left right) (closed : left.Closed) (closed' : right.Closed)
  (apart : Apart left right)

include joins

theorem within_left (path : ReflTransGen left.edge id id') : ReflTransGen whole.edge id id' :=
  ReflTransGen.mono (fun _ _ edge => joins.edge.mpr (.inl edge)) _ _ path

theorem within_right (path : ReflTransGen right.edge id id') : ReflTransGen whole.edge id id' :=
  ReflTransGen.mono (fun _ _ edge => joins.edge.mpr (.inr (.inl edge))) _ _ path

theorem across (leaves : left.Leaves id) (enters : right.Enters id') :
    TransGen whole.edge id id' := by
  obtain ⟨last, ends, path⟩ := leaves
  obtain ⟨first, begins, path'⟩ := enters
  have step : whole.edge last first := joins.edge.mpr (.inr (.inr ⟨ends, begins⟩))
  exact TransGen.trans_right (joins.within_left path)
    (TransGen.head' step (joins.within_right path'))

include closed closed'

theorem closed_whole : whole.Closed where
  first begins := joins.inside.mpr (.inl (closed.first (joins.first.mp begins)))
  last ends := joins.inside.mpr <| (joins.last.mp ends).elim
    (fun ends => .inr (closed'.last ends)) fun ends => .inl (closed.last ends.2)
  edge edge := by
    rcases joins.edge.mp edge with edge | edge | ⟨ends, begins⟩
    · exact (closed.edge edge).imp (joins.inside.mpr <| .inl ·) (joins.inside.mpr <| .inl ·)
    · exact (closed'.edge edge).imp (joins.inside.mpr <| .inr ·) (joins.inside.mpr <| .inr ·)
    · have here := joins.inside.mpr (.inl (closed.last ends))
      exact ⟨here, joins.inside.mpr (.inr (closed'.first begins))⟩

include apart

theorem reaches_iff : TransGen whole.edge id id' ↔
    TransGen left.edge id id' ∨ TransGen right.edge id id' ∨ left.Leaves id ∧ right.Enters id' := by
  constructor
  · intro path
    -- A path crosses over at most once, since no edge leads back into the first part.
    induction path with
    | single edge =>
        rcases joins.edge.mp edge with edge | edge | ⟨ends, begins⟩
        · exact .inl (.single edge)
        · exact .inr (.inl (.single edge))
        · exact .inr (.inr ⟨⟨_, ends, .refl⟩, _, begins, .refl⟩)
    | tail _ edge ih =>
        rcases ih with path | path | ⟨leaves, first, begins, path⟩
        · have here := (closed.reaches path).2
          rcases joins.edge.mp edge with edge | edge | ⟨ends, begins⟩
          · exact .inl (path.tail edge)
          · exact (apart here (closed'.edge edge).1).elim
          · exact .inr (.inr ⟨⟨_, ends, path.to_reflTransGen⟩, _, begins, .refl⟩)
        · have here := (closed'.reaches path).2
          rcases joins.edge.mp edge with edge | edge | ⟨ends, -⟩
          · exact (apart (closed.edge edge).1 here).elim
          · exact .inr (.inl (path.tail edge))
          · exact (apart (closed.last ends) here).elim
        · have here := closed'.enters ⟨first, begins, path⟩
          rcases joins.edge.mp edge with edge | edge | ⟨ends, -⟩
          · exact (apart (closed.edge edge).1 here).elim
          · exact .inr (.inr ⟨leaves, first, begins, path.tail edge⟩)
          · exact (apart (closed.last ends) here).elim
  · rintro (path | path | ⟨leaves, enters⟩)
    · exact TransGen.mono (fun _ _ edge => joins.edge.mpr (.inl edge)) _ _ path
    · exact TransGen.mono (fun _ _ edge => joins.edge.mpr (.inr (.inl edge))) _ _ path
    · exact joins.across leaves enters

theorem enters_iff : whole.Enters id ↔ left.Enters id ∨ left.Relays ∧ right.Enters id := by
  constructor
  · rintro ⟨first, begins, path⟩
    have begins := joins.first.mp begins
    rcases reflTransGen_iff_eq_or_transGen.mp path with rfl | path
    · exact .inl ⟨_, begins, .refl⟩
    · rcases (joins.reaches_iff closed closed' apart).mp path with path | path | ⟨leaves, enters⟩
      · exact .inl ⟨first, begins, path.to_reflTransGen⟩
      · exact (apart (closed.first begins) (closed'.reaches path).1).elim
      · exact .inr ⟨⟨first, begins, leaves⟩, enters⟩
  · rintro (⟨first, begins, path⟩ | ⟨⟨first, begins, leaves⟩, enters⟩)
    · exact ⟨first, joins.first.mpr begins, joins.within_left path⟩
    · exact ⟨first, joins.first.mpr begins, (joins.across leaves enters).to_reflTransGen⟩

theorem leaves_iff : whole.Leaves id ↔
    right.Leaves id ∨ ((∀ id, ¬ right.last id) ∨ right.Relays) ∧ left.Leaves id := by
  constructor
  · rintro ⟨last, ends, path⟩
    -- The first part has the last ones only if the second has none.
    rcases reflTransGen_iff_eq_or_transGen.mp path with rfl | path
    · rcases joins.last.mp ends with ends | ⟨none, ends⟩
      · exact .inl ⟨_, ends, .refl⟩
      · exact .inr ⟨.inl none, _, ends, .refl⟩
    · rcases (joins.reaches_iff closed closed' apart).mp path with path | path | ⟨leaves, enters⟩
      · rcases joins.last.mp ends with ends | ⟨none, ends⟩
        · exact (apart (closed.reaches path).2 (closed'.last ends)).elim
        · exact .inr ⟨.inl none, last, ends, path.to_reflTransGen⟩
      · rcases joins.last.mp ends with ends | ⟨none, ends⟩
        · exact .inl ⟨last, ends, path.to_reflTransGen⟩
        · exact (apart (closed.last ends) (closed'.reaches path).2).elim
      · rcases joins.last.mp ends with ends | ⟨none, ends⟩
        · exact .inr ⟨.inr (relays_of_enters enters ends), leaves⟩
        · exact (apart (closed.last ends) (closed'.enters enters)).elim
  · rintro (⟨last, ends, path⟩ | ⟨none | ⟨first, begins, last, ends, path⟩, leaves⟩)
    · exact ⟨last, joins.last.mpr (.inl ends), joins.within_right path⟩
    · obtain ⟨last, ends, path⟩ := leaves
      exact ⟨last, joins.last.mpr (.inr ⟨none, ends⟩), joins.within_left path⟩
    · have enters : right.Enters last := ⟨first, begins, path⟩
      exact ⟨last, joins.last.mpr (.inl ends), (joins.across leaves enters).to_reflTransGen⟩

theorem relays_iff : whole.Relays ↔ left.Relays ∧ ((∀ id, ¬ right.last id) ∨ right.Relays) := by
  constructor
  · rintro ⟨first, begins, leaves⟩
    have begins := joins.first.mp begins
    rcases (joins.leaves_iff closed closed' apart).mp leaves with leaves | ⟨onward, leaves⟩
    · exact (apart (closed.first begins) (closed'.leaves leaves)).elim
    · exact ⟨⟨first, begins, leaves⟩, onward⟩
  · rintro ⟨⟨first, begins, leaves⟩, onward⟩
    exact ⟨first, joins.first.mpr begins,
      (joins.leaves_iff closed closed' apart).mpr (.inr ⟨onward, leaves⟩)⟩

end Joins

/-! ## One part beside another -/

/-- The whole consists of two parts that have nothing to do with each other. -/
structure Lies (whole left right : Span) : Prop where
  inside : ∀ {id}, whole.inside id ↔ left.inside id ∨ right.inside id
  first : ∀ {id}, whole.first id ↔ left.first id ∨ right.first id
  last : ∀ {id}, whole.last id ↔ left.last id ∨ right.last id
  edge : ∀ {id id'}, whole.edge id id' ↔ left.edge id id' ∨ right.edge id id'

namespace Lies

variable (lies : Lies whole left right) (closed : left.Closed) (closed' : right.Closed)
  (apart : Apart left right)

include lies

theorem within_left (path : ReflTransGen left.edge id id') : ReflTransGen whole.edge id id' :=
  ReflTransGen.mono (fun _ _ edge => lies.edge.mpr (.inl edge)) _ _ path

theorem within_right (path : ReflTransGen right.edge id id') : ReflTransGen whole.edge id id' :=
  ReflTransGen.mono (fun _ _ edge => lies.edge.mpr (.inr edge)) _ _ path

include closed closed'

theorem closed_whole : whole.Closed where
  first begins := lies.inside.mpr ((lies.first.mp begins).imp closed.first closed'.first)
  last ends := lies.inside.mpr ((lies.last.mp ends).imp closed.last closed'.last)
  edge edge := by
    rcases lies.edge.mp edge with edge | edge
    · exact (closed.edge edge).imp (lies.inside.mpr <| .inl ·) (lies.inside.mpr <| .inl ·)
    · exact (closed'.edge edge).imp (lies.inside.mpr <| .inr ·) (lies.inside.mpr <| .inr ·)

include apart

theorem reaches_iff :
    TransGen whole.edge id id' ↔ TransGen left.edge id id' ∨ TransGen right.edge id id' := by
  constructor
  · intro path
    induction path with
    | single edge => exact (lies.edge.mp edge).imp .single .single
    | tail _ edge ih =>
        rcases ih with path | path
        · rcases lies.edge.mp edge with edge | edge
          · exact .inl (path.tail edge)
          · exact (apart (closed.reaches path).2 (closed'.edge edge).1).elim
        · rcases lies.edge.mp edge with edge | edge
          · exact (apart (closed.edge edge).1 (closed'.reaches path).2).elim
          · exact .inr (path.tail edge)
  · rintro (path | path)
    · exact TransGen.mono (fun _ _ edge => lies.edge.mpr (.inl edge)) _ _ path
    · exact TransGen.mono (fun _ _ edge => lies.edge.mpr (.inr edge)) _ _ path

/-- A path stays in the part that it begins in. -/
theorem stays (path : ReflTransGen whole.edge id id') :
    (left.inside id → ReflTransGen left.edge id id') ∧
      (right.inside id → ReflTransGen right.edge id id') := by
  rcases reflTransGen_iff_eq_or_transGen.mp path with rfl | path
  · exact ⟨fun _ => .refl, fun _ => .refl⟩
  · rcases (lies.reaches_iff closed closed' apart).mp path with path | path
    · have here := (closed.reaches path).1
      exact ⟨fun _ => path.to_reflTransGen, fun inside => (apart here inside).elim⟩
    · have there := (closed'.reaches path).1
      exact ⟨fun inside => (apart inside there).elim, fun _ => path.to_reflTransGen⟩

theorem enters_iff : whole.Enters id ↔ left.Enters id ∨ right.Enters id := by
  constructor
  · rintro ⟨first, begins, path⟩
    have stays := lies.stays closed closed' apart path
    rcases lies.first.mp begins with begins | begins
    · exact .inl ⟨first, begins, stays.1 (closed.first begins)⟩
    · exact .inr ⟨first, begins, stays.2 (closed'.first begins)⟩
  · rintro (⟨first, begins, path⟩ | ⟨first, begins, path⟩)
    · exact ⟨first, lies.first.mpr (.inl begins), lies.within_left path⟩
    · exact ⟨first, lies.first.mpr (.inr begins), lies.within_right path⟩

theorem leaves_iff : whole.Leaves id ↔ left.Leaves id ∨ right.Leaves id := by
  constructor
  · rintro ⟨last, ends, path⟩
    rcases reflTransGen_iff_eq_or_transGen.mp path with rfl | path
    · exact (lies.last.mp ends).imp (fun ends => ⟨_, ends, .refl⟩) fun ends => ⟨_, ends, .refl⟩
    · rcases (lies.reaches_iff closed closed' apart).mp path with path | path
      · rcases lies.last.mp ends with ends | ends
        · exact .inl ⟨last, ends, path.to_reflTransGen⟩
        · exact (apart (closed.reaches path).2 (closed'.last ends)).elim
      · rcases lies.last.mp ends with ends | ends
        · exact (apart (closed.last ends) (closed'.reaches path).2).elim
        · exact .inr ⟨last, ends, path.to_reflTransGen⟩
  · rintro (⟨last, ends, path⟩ | ⟨last, ends, path⟩)
    · exact ⟨last, lies.last.mpr (.inl ends), lies.within_left path⟩
    · exact ⟨last, lies.last.mpr (.inr ends), lies.within_right path⟩

theorem relays_iff : whole.Relays ↔ left.Relays ∨ right.Relays := by
  constructor
  · rintro ⟨first, begins, leaves⟩
    rcases lies.first.mp begins with begins | begins
    · rcases (lies.leaves_iff closed closed' apart).mp leaves with leaves | leaves
      · exact .inl ⟨first, begins, leaves⟩
      · exact (apart (closed.first begins) (closed'.leaves leaves)).elim
    · rcases (lies.leaves_iff closed closed' apart).mp leaves with leaves | leaves
      · exact (apart (closed.leaves leaves) (closed'.first begins)).elim
      · exact .inr ⟨first, begins, leaves⟩
  · rintro (⟨first, begins, leaves⟩ | ⟨first, begins, leaves⟩)
    · exact ⟨first, lies.first.mpr (.inl begins),
        (lies.leaves_iff closed closed' apart).mpr (.inl leaves)⟩
    · exact ⟨first, lies.first.mpr (.inr begins),
        (lies.leaves_iff closed closed' apart).mpr (.inr leaves)⟩

end Lies

end Span

end BuildFlow.Graph
