import BuildFlow.Proofs.Secrecy.Host
/-!
Actions on a node that is seen through a veil: the action has to do on the
veiled node what it does on the node, with hosts that are alike.
-/
namespace BuildFlow.NodeAct

open Act

variable {ν μ α β γ δ : Type} {view : ν → ν}

/-- The one node is the other as it is seen through a veil, and the hosts are alike. -/
def Seen (view : ν → ν) (state other : ν × Host) : Prop :=
  other.1 = view state.1 ∧ state.2.Alike other.2

/-- The action does on the veiled node what it does on the node. -/
abbrev Veiled (view : ν → ν) (action : NodeAct ν α) : Prop :=
  Mirrors (Seen view) Eq action action

variable {see : α → β → Prop}

theorem mirrors_node_bind {next : ν → NodeAct ν α} {next' : ν → NodeAct ν β}
    (second : ∀ node, Mirrors (Seen view) see (next node) (next' (view node))) :
    Mirrors (Seen view) see (node >>= next) (node >>= next') := by
  intro state other alike
  obtain ⟨node, host⟩ := state
  obtain ⟨node', host'⟩ := other
  obtain ⟨rfl, hosts⟩ := alike
  exact second node _ _ ⟨rfl, hosts⟩

theorem mirrors_host_bind {next : Host → NodeAct ν α} {next' : Host → NodeAct ν β}
    (second : ∀ host other, host.Alike other →
      Mirrors (Seen view) see (next host) (next' other)) :
    Mirrors (Seen view) see (host >>= next) (host >>= next') :=
  fun state other alike => second state.2 other.2 alike.2 state other alike

theorem veiled_setNode {node node' : ν} (same : node' = view node) :
    Mirrors (Seen view) Eq (setNode node) (setNode node') :=
  mirrors_modify fun _ _ alike => ⟨same, alike.2⟩

theorem veiled_modifyNode {f g : ν → ν} (same : ∀ node, g (view node) = view (f node)) :
    Mirrors (Seen view) Eq (modifyNode f) (modifyNode g) :=
  mirrors_modify fun state other alike => by
    obtain ⟨node, host⟩ := state
    obtain ⟨node', host'⟩ := other
    obtain ⟨rfl, hosts⟩ := alike
    exact ⟨same node, hosts⟩

theorem mirrors_onHost {action : Act Host α} {image : Act Host β}
    (mirrors : Mirrors Host.Alike see action image) :
    Mirrors (Seen view) see (onHost action) (onHost image) := by
  intro state other alike
  have ran := mirrors state.2 other.2 alike.2
  change Act.Alike _ see
    ((action.run state.2).1, state.1, (action.run state.2).2)
    ((image.run other.2).1, other.1, (image.run other.2).2)
  generalize action.run state.2 = here at ran
  generalize image.run other.2 = there at ran
  cases ran with
  | passed seen hosts => exact .passed seen ⟨alike.1, hosts⟩
  | halted hosts => exact .halted ⟨alike.1, hosts⟩

theorem veiled_log (level : Level) (message : String) (fields : List (String × Json)) :
    Veiled view (NodeAct.log level message fields) :=
  mirrors_onHost (Host.blind_log level message fields)

/-! ## Visits -/

/-- The visit does on the veiled node what it does on this node. -/
def VeiledAt (view : ν → ν) (visit : Visit ν) (node : ν) : Prop :=
  ∀ host other, host.Alike other →
    Act.Alike (Seen view) Eq (visit node host) (visit (view node) other)

/-- The visit does on the veiled node what it does on the node. -/
def VeiledVisit (view : ν → ν) (visit : Visit ν) : Prop := ∀ node, VeiledAt view visit node

theorem Veiled.visit {action : NodeAct ν Unit} (veiled : Veiled view action) :
    VeiledVisit view (NodeAct.visit action) :=
  fun node host other alike => veiled (node, host) (view node, other) ⟨rfl, alike⟩

theorem veiled_onPart {visit : Visit μ} {veil : μ → μ} (veiled : VeiledVisit veil visit) (part : μ)
    {put put' : μ → ν} (same : ∀ part, put' (veil part) = view (put part)) :
    Mirrors (Seen view) Eq (onPart visit part put) (onPart visit (veil part) put') := by
  intro state other alike
  have ran := veiled part state.2 other.2 alike.2
  change Act.Alike _ Eq
    ((visit part state.2).1, put (visit part state.2).2.1, (visit part state.2).2.2)
    ((visit (veil part) other.2).1, put' (visit (veil part) other.2).2.1,
      (visit (veil part) other.2).2.2)
  generalize visit part state.2 = here at ran
  generalize visit (veil part) other.2 = there at ran
  cases ran with
  | passed seen hosts => exact .passed seen ⟨by rw [hosts.1, same], hosts.2⟩
  | halted hosts => exact .halted ⟨by rw [hosts.1, same], hosts.2⟩

theorem veiled_failure? {action image : NodeAct ν Unit}
    (mirrors : Mirrors (Seen view) Eq action image) :
    Mirrors (Seen view) Eq (failure? action) (failure? image) := by
  refine (mirrors.next fun _ => mirrors_pure rfl).catching fun halt => ?_
  split
  · exact mirrors_pure rfl
  · exact mirrors_throw _

end BuildFlow.NodeAct
