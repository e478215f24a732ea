import BuildFlow.Proofs.Act
/-!
Two actions mirror each other if from states that are alike they answer alike
and lead to states that are alike. What that says about a run is proved along
the binds of the two actions, so it has to be shown of each call only once.
-/
namespace BuildFlow

namespace Act

variable {σ τ α β γ δ : Type} {same : σ → τ → Prop}

/-- Both passed with values that are alike, or both were halted by the same; the
states are alike. -/
inductive Alike (same : σ → τ → Prop) (see : α → β → Prop) :
    Except Halt α × σ → Except Halt β × τ → Prop
  | passed {value : α} {image : β} {state : σ} {other : τ} (seen : see value image)
      (alike : same state other) : Alike same see (.ok value, state) (.ok image, other)
  | halted {halt : Halt} {state : σ} {other : τ} (alike : same state other) :
      Alike same see (.error halt, state) (.error halt, other)

theorem Alike.states {see : α → β → Prop} {ran : Except Halt α × σ} {ran' : Except Halt β × τ}
    (alike : Alike same see ran ran') : same ran.2 ran'.2 := by
  cases alike <;> assumption

theorem Alike.answers {ran : Except Halt α × σ} {ran' : Except Halt α × τ}
    (alike : Alike same Eq ran ran') : ran.1 = ran'.1 := by
  cases alike with
  | passed seen => exact congrArg Except.ok seen
  | halted => rfl

/-- From states that are alike the actions answer alike and lead to states that are alike. -/
def Mirrors (same : σ → τ → Prop) (see : α → β → Prop) (action : Act σ α) (image : Act τ β) : Prop :=
  ∀ state other, same state other → Alike same see (action.run state) (image.run other)

variable {see : α → β → Prop} {see' : γ → δ → Prop}

theorem mirrors_pure {value : α} {image : β} (seen : see value image) :
    Mirrors same see (pure value) (pure image) :=
  fun _ _ alike => .passed seen alike

theorem mirrors_throw (halt : Halt) : Mirrors same see (throw halt) (throw halt) :=
  fun _ _ alike => .halted alike

theorem mirrors_modify {f : σ → σ} {g : τ → τ}
    (kept : ∀ state other, same state other → same (f state) (g other)) :
    Mirrors same Eq (modify f) (modify g) :=
  fun state other alike => .passed rfl (kept state other alike)

theorem mirrors_set {state : σ} {other : τ} (alike : same state other) :
    Mirrors same Eq (set state) (set other) :=
  fun _ _ _ => .passed rfl alike

theorem mirrors_get : Mirrors same same get get := fun _ _ alike => .passed alike alike

theorem Mirrors.bind {action : Act σ α} {image : Act τ β} {next : α → Act σ γ}
    {next' : β → Act τ δ} (first : Mirrors same see action image)
    (second : ∀ value other, see value other → Mirrors same see' (next value) (next' other)) :
    Mirrors same see' (action >>= next) (image >>= next') := by
  intro state other alike
  have ran := first state other alike
  rw [run_bind, run_bind]
  generalize action.run state = here at ran
  generalize image.run other = there at ran
  cases ran with
  | passed seen alike => exact second _ _ seen _ _ alike
  | halted alike => exact .halted alike

/-- An action whose answer is the same on both sides, and what follows. -/
theorem Mirrors.next {action : Act σ α} {image : Act τ α} {next : α → Act σ γ}
    {next' : α → Act τ δ} (first : Mirrors same Eq action image)
    (second : ∀ value, Mirrors same see' (next value) (next' value)) :
    Mirrors same see' (action >>= next) (image >>= next') :=
  first.bind fun value _ seen => seen ▸ second value

theorem mirrors_get_bind {next : σ → Act σ γ} {next' : τ → Act τ δ}
    (second : ∀ state other, same state other → Mirrors same see' (next state) (next' other)) :
    Mirrors same see' (get >>= next) (get >>= next') :=
  mirrors_get.bind second

theorem Mirrors.discard {action : Act σ α} {image : Act τ β}
    (first : Mirrors same see action image) :
    Mirrors same Eq (discard action : Act σ PUnit) (discard image : Act τ PUnit) := by
  intro state other alike
  have ran := first state other alike
  rw [run_discard, run_discard]
  generalize action.run state = here at ran
  generalize image.run other = there at ran
  cases ran with
  | passed seen alike => exact .passed rfl alike
  | halted alike => exact .halted alike

theorem Mirrors.catching {action : Act σ α} {image : Act τ β} {handler : Halt → Act σ α}
    {handler' : Halt → Act τ β} (first : Mirrors same see action image)
    (second : ∀ halt, Mirrors same see (handler halt) (handler' halt)) :
    Mirrors same see (tryCatch action handler) (tryCatch image handler') := by
  intro state other alike
  have ran := first state other alike
  rw [run_tryCatch, run_tryCatch]
  generalize action.run state = here at ran
  generalize image.run other = there at ran
  cases ran with
  | passed seen alike => exact .passed seen alike
  | halted alike => exact second _ _ _ alike

theorem mirrors_ite {p : Prop} [Decidable p] {action other : Act σ α} {image image' : Act τ β}
    (left : Mirrors same see action image) (right : Mirrors same see other image') :
    Mirrors same see (if p then action else other) (if p then image else image') := by
  split
  · exact left
  · exact right

/-- Both branch alike, each by its own condition. -/
theorem mirrors_ite_of_iff {p q : Prop} [Decidable p] [Decidable q] {action other : Act σ α}
    {image image' : Act τ β} (alike : p ↔ q) (left : Mirrors same see action image)
    (right : Mirrors same see other image') :
    Mirrors same see (if p then action else other) (if q then image else image') := by
  by_cases holds : p
  · rw [if_pos holds, if_pos (alike.mp holds)]
    exact left
  · rw [if_neg holds, if_neg fun other => holds (alike.mpr other)]
    exact right

theorem mirrors_forM {list : List γ} {action : γ → Act σ PUnit} {image : γ → Act τ PUnit}
    (each : ∀ item, Mirrors same Eq (action item) (image item)) :
    Mirrors same Eq (list.forM action) (list.forM image) := by
  induction list with
  | nil => exact mirrors_pure rfl
  | cons item rest ih => exact (each item).next fun _ => ih

theorem mirrors_mapM {list : List γ} {change : γ → δ} {action : γ → Act σ α} {image : δ → Act τ α}
    (each : ∀ item ∈ list, Mirrors same Eq (action item) (image (change item))) :
    Mirrors same Eq (list.mapM action) ((list.map change).mapM image) := by
  induction list with
  | nil => exact mirrors_pure rfl
  | cons item rest ih =>
      rw [List.map_cons, List.mapM_cons, List.mapM_cons]
      exact (each item List.mem_cons_self).next fun _ =>
        (ih fun other member => each other (List.mem_cons_of_mem _ member)).next fun _ =>
          mirrors_pure rfl

end Act

end BuildFlow
