import Mathlib.Data.List.Forall2
/-!
Lists side by side: what relates them item for item.
-/
namespace BuildFlow

variable {α β : Type} {R S : α → β → Prop} {list : List α} {other : List β}

theorem forall₂_of_mem (each : List.Forall₂ R list other)
    (implies : ∀ item ∈ list, ∀ image ∈ other, R item image → S item image) :
    List.Forall₂ S list other := by
  induction each with
  | nil => exact .nil
  | cons here _ ih =>
      constructor
      · exact implies _ List.mem_cons_self _ List.mem_cons_self here
      · exact ih fun item member image member' =>
          implies item (List.mem_cons_of_mem _ member) image (List.mem_cons_of_mem _ member')

theorem forall₂_getElem? (each : List.Forall₂ R list other) {index : Nat} {item : α}
    (here : list[index]? = some item) : ∃ image, other[index]? = some image ∧ R item image := by
  induction each generalizing index with
  | nil => cases here
  | @cons first image _ _ related _ ih =>
      cases index with
      | zero =>
          cases here
          exact ⟨image, rfl, related⟩
      | succ index => exact ih here

theorem exists_of_mem_right (each : List.Forall₂ R list other) {image : β} (member : image ∈ other) :
    ∃ item ∈ list, R item image := by
  obtain ⟨index, here⟩ := List.getElem?_of_mem member
  obtain ⟨item, there, related⟩ := forall₂_getElem? each.flip here
  exact ⟨item, List.mem_of_getElem? there, related⟩

theorem forall₂_set (each : List.Forall₂ R list other) (index : Nat) {item : α} {image : β}
    (related : R item image) : List.Forall₂ R (list.set index item) (other.set index image) := by
  induction each generalizing index with
  | nil => exact .nil
  | cons here rest ih =>
      cases index with
      | zero => exact .cons related rest
      | succ index => exact .cons here (ih index)

theorem forall₂_map_eq {γ : Type} {f : α → γ} {g : β → γ} (each : List.Forall₂ R list other)
    (same : ∀ item image, R item image → g image = f item) : other.map g = list.map f := by
  induction each with
  | nil => rfl
  | cons here _ ih => rw [List.map_cons, List.map_cons, same _ _ here, ih]

/-- What is related to both sides of a relation, item for item. -/
theorem forall₂_join {γ δ : Type} {P : γ → δ → Prop} {Q : α → Prop} {T : α → γ → Prop}
    {U : β → δ → Prop} {left : List γ} {right : List δ} (each : List.Forall₂ R list other)
    (first : List.Forall₂ T list left) (second : List.Forall₂ U other right)
    (joins : ∀ item ∈ list, ∀ {image mark mark'}, R item image → T item mark → U image mark' →
      P mark mark' ∧ Q item) : List.Forall₂ P left right ∧ ∀ item ∈ list, Q item := by
  induction each generalizing left right with
  | nil =>
      cases first
      cases second
      exact ⟨.nil, fun _ member => (List.not_mem_nil member).elim⟩
  | cons here _ ih =>
      cases first with
      | cons at' first =>
          cases second with
          | cons at'' second =>
              obtain ⟨joined, held⟩ := joins _ List.mem_cons_self here at' at''
              obtain ⟨rest, later⟩ := ih first second fun item member =>
                joins item (List.mem_cons_of_mem _ member)
              exact ⟨.cons joined rest, List.forall_mem_cons.mpr ⟨held, later⟩⟩

end BuildFlow
