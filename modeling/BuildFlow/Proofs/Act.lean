import BuildFlow.Sweep.Focus
/-!
Where an action leads. `Leads action state post` says that the answer of the
action and the state after it satisfy `post`, whether it ends early or not. An
action is taken apart along its binds, so that a fact about a call is proved
once and used wherever the call occurs.
-/
namespace BuildFlow.Act

variable {σ α β : Type}

/-- The answer of an action and the state after it satisfy `post`. -/
def Leads (action : Act σ α) (state : σ) (post : Except Halt α → σ → Prop) : Prop :=
  post (action.run state).1 (action.run state).2

theorem Leads.mono {action : Act σ α} {state : σ} {post weaker : Except Halt α → σ → Prop}
    (leads : action.Leads state post)
    (weaken : ∀ answer next, post answer next → weaker answer next) :
    action.Leads state weaker :=
  weaken _ _ leads

/-- What an action leads to is what it comes to when it is run. -/
theorem Leads.known {action : Act σ α} {state : σ} {post : Except Halt α → σ → Prop}
    (leads : action.Leads state post) :
    action.Leads state fun answer next => post answer next ∧ action.run state = (answer, next) :=
  ⟨leads, rfl⟩

/-- What an action that was run has led to. -/
theorem Leads.ran {action : Act σ α} {state next : σ} {answer : Except Halt α}
    {post : Except Halt α → σ → Prop} (leads : action.Leads state post)
    (ran : action.run state = (answer, next)) : post answer next := by
  unfold Leads at leads
  rwa [ran] at leads

theorem leads_of_run {action : Act σ α} {state next : σ} {answer : Except Halt α}
    (ran : action.run state = (answer, next)) (post : Except Halt α → σ → Prop) :
    action.Leads state post ↔ post answer next := by
  unfold Leads
  rw [ran]

@[simp] theorem leads_pure (value : α) (state : σ) (post : Except Halt α → σ → Prop) :
    (pure value : Act σ α).Leads state post ↔ post (.ok value) state := Iff.rfl

@[simp] theorem leads_get (state : σ) (post : Except Halt σ → σ → Prop) :
    (get : Act σ σ).Leads state post ↔ post (.ok state) state := Iff.rfl

@[simp] theorem leads_set (next state : σ) (post : Except Halt PUnit → σ → Prop) :
    (set next : Act σ PUnit).Leads state post ↔ post (.ok ⟨⟩) next := Iff.rfl

@[simp] theorem leads_modify (f : σ → σ) (state : σ) (post : Except Halt PUnit → σ → Prop) :
    (modify f : Act σ PUnit).Leads state post ↔ post (.ok ⟨⟩) (f state) := Iff.rfl

theorem run_bind (action : Act σ α) (next : α → Act σ β) (state : σ) :
    (action >>= next).run state =
      match action.run state with
      | (.ok value, state) => (next value).run state
      | (.error halt, state) => (.error halt, state) := by
  change ExceptT.bindCont next (action.run state).1 (action.run state).2 = _
  cases ended : action.run state with
  | mk answer state => cases answer <;> rfl

theorem throw_bind (halt : Halt) (next : α → Act σ β) :
    (throw halt >>= next : Act σ β) = throw halt := rfl

@[simp] theorem leads_bind (action : Act σ α) (next : α → Act σ β) (state : σ)
    (post : Except Halt β → σ → Prop) :
    (action >>= next).Leads state post ↔
      action.Leads state fun answer state =>
        match answer with
        | .ok value => (next value).Leads state post
        | .error halt => post (.error halt) state := by
  unfold Leads
  rw [run_bind]
  cases ended : action.run state with
  | mk answer state => cases answer <;> rfl

theorem run_discard (action : Act σ α) (state : σ) :
    (discard action : Act σ PUnit).run state =
      match action.run state with
      | (.ok _, state) => (.ok ⟨⟩, state)
      | (.error halt, state) => (.error halt, state) := by
  change ((Functor.map (fun _ => PUnit.unit) action : Act σ PUnit)).run state = _
  unfold ExceptT.run
  simp only [Functor.map, ExceptT.map, ExceptT.mk, bind, StateT.bind]
  cases ended : action state with
  | mk answer next => cases answer <;> rfl

@[simp] theorem leads_discard (action : Act σ α) (state : σ)
    (post : Except Halt PUnit → σ → Prop) :
    (discard action : Act σ PUnit).Leads state post ↔
      action.Leads state fun answer state =>
        match answer with
        | .ok _ => post (.ok ⟨⟩) state
        | .error halt => post (.error halt) state := by
  unfold Leads
  rw [run_discard]
  cases ended : action.run state with
  | mk answer next => cases answer <;> rfl

theorem run_tryCatch (action : Act σ α) (handler : Halt → Act σ α) (state : σ) :
    (tryCatch action handler).run state =
      match action.run state with
      | (.ok value, state) => (.ok value, state)
      | (.error halt, state) => (handler halt).run state := by
  change (ExceptT.tryCatch action handler).run state = _
  unfold ExceptT.tryCatch ExceptT.run
  simp only [ExceptT.mk, bind, StateT.bind]
  cases ended : action state with
  | mk answer next => cases answer <;> rfl

@[simp] theorem leads_tryCatch (action : Act σ α) (handler : Halt → Act σ α) (state : σ)
    (post : Except Halt α → σ → Prop) :
    (tryCatch action handler).Leads state post ↔
      action.Leads state fun answer state =>
        match answer with
        | .ok value => post (.ok value) state
        | .error halt => (handler halt).Leads state post := by
  unfold Leads
  rw [run_tryCatch]
  cases ended : action.run state with
  | mk answer next => cases answer <;> rfl

end BuildFlow.Act

namespace BuildFlow.NodeAct

open Act

variable {ν μ α : Type} {state : ν × Host}

@[simp] theorem leads_node (post : Except Halt ν → ν × Host → Prop) :
    (node : NodeAct ν ν).Leads state post ↔ post (.ok state.1) state := Iff.rfl

@[simp] theorem leads_host (post : Except Halt Host → ν × Host → Prop) :
    (host : NodeAct ν Host).Leads state post ↔ post (.ok state.2) state := Iff.rfl

@[simp] theorem leads_setNode (node : ν) (post : Except Halt Unit → ν × Host → Prop) :
    (setNode node).Leads state post ↔ post (.ok ()) (node, state.2) := Iff.rfl

@[simp] theorem leads_modifyNode (f : ν → ν) (post : Except Halt Unit → ν × Host → Prop) :
    (modifyNode f).Leads state post ↔ post (.ok ()) (f state.1, state.2) := Iff.rfl

theorem leads_onHost (action : Act Host α) (post : Except Halt α → ν × Host → Prop) :
    (onHost action : NodeAct ν α).Leads state post ↔
      action.Leads state.2 fun answer host => post answer (state.1, host) :=
  Iff.rfl

theorem leads_onPart (visit : Visit μ) (part : μ) (put : μ → ν)
    (post : Except Halt Unit → ν × Host → Prop) :
    (onPart visit part put).Leads state post ↔
      post (visit part state.2).1 (put (visit part state.2).2.1, (visit part state.2).2.2) :=
  Iff.rfl

/-- A visit ends as its action does. -/
theorem visit_eq (action : NodeAct ν Unit) (node : ν) (host : Host) :
    visit action node host =
      ((action.run (node, host)).1, (action.run (node, host)).2.1,
        (action.run (node, host)).2.2) := rfl

theorem leads_failure? (action : NodeAct ν Unit)
    (post : Except Halt (Option JobFailure) → ν × Host → Prop) :
    (failure? action).Leads state post ↔
      action.Leads state fun answer state =>
        match answer with
        | .ok () => post (.ok none) state
        | .error (.error (.failed failure)) => post (.ok (some failure)) state
        | .error halt => post (.error halt) state := by
  unfold failure?
  rw [leads_tryCatch, leads_bind]
  unfold Leads
  cases ended : action.run state with
  | mk answer state =>
      cases answer with
      | ok => exact Iff.rfl
      | error halt =>
          cases halt with
          | broken => exact Iff.rfl
          | error error => cases error <;> exact Iff.rfl

end BuildFlow.NodeAct
