import BuildFlow.Proofs.Secrecy.Tree
import BuildFlow.Rehearsal
/-!
Declarations with the values of all parameters left out. No step of a
declaration looks at a value, so what it answers and tells is the same, and the
tree that comes of it is the same but for the values.
-/
namespace BuildFlow

open NodeAct Act

/-! ## Trees and drafts -/

/-- The parameters without their values. -/
def Params.blank (params : Params) : Params := params.mapValues fun _ _ => ""

/-- A parameter as it is declared, without its value. -/
def Params.blankValue (param : String × ParamValue) : String × ParamValue := (param.1, .text "")

theorem Params.blank_ofValues (values : List (String × ParamValue)) :
    (Params.ofValues values).blank = Params.ofValues (values.map blankValue) := by
  have folded : ∀ (values : List (String × ParamValue)) (table : Params),
      ((values.map fun entry => (entry.1, entry.2.render)).foldl
        (fun table entry => table.insert entry.1 entry.2) table).blank =
      ((values.map blankValue).map fun entry => (entry.1, entry.2.render)).foldl
        (fun table entry => table.insert entry.1 entry.2) table.blank := by
    intro values
    induction values with
    | nil => exact fun _ => rfl
    | cons value rest ih =>
        intro table
        rw [List.map_cons, List.foldl_cons, ih, List.map_cons, List.map_cons, List.foldl_cons]
        congr 1
        exact Table.mapValues_insert _ table _ _
  exact folded values ∅

/-- The tree without the values of parameters. -/
def Tree.bare (tree : Tree) : Tree := tree.repaint fun _ params => params.blank

/-- The flow without the values of parameters. -/
def Flow.bare (flow : Flow) : Flow := { flow with root := flow.root.bare }

def OpenGroup.bare (opened : OpenGroup) : OpenGroup :=
  { opened with children := opened.children.map Tree.bare }

theorem OpenGroup.toTree_bare (opened : OpenGroup) : opened.bare.toTree = opened.toTree.bare :=
  (Tree.repaint_branch _ opened.group opened.children).symm

namespace Draft

/-- The draft without the values of parameters. -/
def bare (draft : Draft) : Draft :=
  { draft with innermost := draft.innermost.bare, outer := draft.outer.map OpenGroup.bare }

theorem level_bare (draft : Draft) : draft.bare.level = draft.level := List.length_map _

theorem veiled_fail {α : Type} (error : FlowError) : Veiled bare (fail error : Step α) :=
  mirrors_throw _

theorem mirrors_failScope {α β : Type} {see : α → β → Prop} (reason : String) (level : Nat) :
    Mirrors (Seen bare) see (failScope reason level) (failScope reason level) := by
  refine mirrors_node_bind fun draft => ?_
  rw [level_bare]
  exact mirrors_throw _

theorem veiled_checkInnermost (ref : GroupRef) : Veiled bare (checkInnermost ref) :=
  mirrors_node_bind fun _ => mirrors_ite (mirrors_pure rfl) (mirrors_failScope _ _)

theorem veiled_checkScope (ref : GroupRef) : Veiled bare (checkScope ref) := by
  refine mirrors_node_bind fun draft => ?_
  rw [level_bare]
  exact mirrors_ite (veiled_checkInnermost ref) (mirrors_failScope _ _)

theorem nestedGroup_bare (draft : Draft) (options : GroupOptions) (serial : Bool)
    (secret : Pattern) (total : Nat) :
    draft.bare.nestedGroup options serial secret total =
      draft.nestedGroup options serial secret total := by
  unfold nestedGroup
  rw [level_bare]
  rfl

theorem veiled_openGroup (parent : GroupRef) (options : GroupOptions) (serial : Bool) :
    Veiled bare (openGroup parent options serial) := by
  refine (veiled_checkScope parent).next fun _ => mirrors_node_bind fun draft => ?_
  rw [show draft.bare.nestedSecret? options = draft.nestedSecret? options from rfl]
  split
  · exact veiled_fail _
  · dsimp only
    rw [nestedGroup_bare, level_bare]
    refine mirrors_ite (veiled_fail _) ((veiled_log _ _ _).next fun _ => ?_)
    exact (veiled_setNode rfl).next fun _ => mirrors_pure rfl

theorem veiled_close (ref : GroupRef) : Veiled bare (close ref) := by
  refine mirrors_ite (mirrors_failScope _ _) ((veiled_checkInnermost ref).next fun _ => ?_)
  refine mirrors_node_bind fun draft => ?_
  obtain ⟨config, innermost, outer, nextId, messages, counts, strip⟩ := draft
  cases outer with
  | nil => exact mirrors_failScope _ _
  | cons parent outer =>
      have empty : innermost.bare.children.isEmpty = innermost.children.isEmpty :=
        List.isEmpty_map
      refine (veiled_log _ _ _).next fun _ => ?_
      refine mirrors_ite_of_iff (Eq.to_iff (congrArg (· = true) empty.symm))
        ((veiled_log _ _ _).next fun _ => veiled_setNode rfl) (veiled_setNode ?_)
      simp [bare, OpenGroup.bare, OpenGroup.toTree, Tree.bare]

theorem veiled_drop (ref : GroupRef) : Veiled bare (drop ref) := by
  refine veiled_modifyNode fun draft => ?_
  obtain ⟨config, innermost, outer, nextId, messages, counts, strip⟩ := draft
  cases outer with
  | nil => rfl
  | cons parent outer =>
      change (if innermost.group.standing.id = ref.id then _ else _) =
        bare (if innermost.group.standing.id = ref.id then _ else _)
      split <;> rfl

theorem newTask_bare (draft : Draft) (job : String) (params : List (String × ParamValue))
    (unchecked : Bool) :
    draft.bare.newTask job (params.map Params.blankValue) unchecked =
      (draft.newTask job params unchecked).repaint fun _ params => params.blank := by
  unfold newTask Task.repaint
  rw [level_bare, ← Params.blank_ofValues]
  rfl

theorem mirrors_invoke (parent : GroupRef) (job : String) (params : List (String × ParamValue))
    (unchecked : Bool) :
    Mirrors (Seen bare) Eq (invoke parent job params unchecked)
      (invoke parent job (params.map Params.blankValue) unchecked) := by
  refine (veiled_checkScope parent).next fun _ => mirrors_node_bind fun draft => ?_
  dsimp only
  rw [newTask_bare]
  refine (veiled_log _ _ _).next fun _ => (veiled_setNode ?_).next fun _ => mirrors_pure rfl
  simp [bare, OpenGroup.bare, Tree.bare, Task.repaint]

theorem veiled_setMessage (id : Nat) (message : String) : Veiled bare (setMessage id message) := by
  refine mirrors_node_bind fun draft => ?_
  rw [show draft.bare.messages = draft.messages from rfl]
  split
  · exact veiled_fail _
  · exact veiled_setNode rfl

theorem withMessages_repaint (messages : Table Nat String) (paint : Pattern → Params → Params)
    (tree : Tree) :
    withMessages messages (tree.repaint paint) = (withMessages messages tree).repaint paint := by
  induction tree using Tree.childrenInduction with
  | leaf => simp [withMessages, Task.repaint]
  | branch group children ih =>
      have below : allWithMessages messages (children.map (Tree.repaint paint)) =
          (allWithMessages messages children).map (Tree.repaint paint) := by
        induction children with
        | nil => rfl
        | cons child rest ihRest =>
            rw [List.map_cons, allWithMessages, allWithMessages, ih child List.mem_cons_self,
              ihRest fun other member => ih other (List.mem_cons_of_mem _ member), List.map_cons]
      rw [Tree.repaint_branch, withMessages, withMessages, below, Tree.repaint_branch]

theorem mirrors_finish : Mirrors (Seen bare) (fun tree other => other = tree.bare) finish finish := by
  refine mirrors_node_bind fun draft => ?_
  obtain ⟨config, innermost, outer, nextId, messages, counts, strip⟩ := draft
  cases outer with
  | cons parent outer =>
      have level := level_bare ⟨config, innermost, parent :: outer, nextId, messages, counts, strip⟩
      dsimp only [bare, List.map_cons] at level ⊢
      rw [level]
      exact mirrors_failScope _ _
  | nil =>
      refine (veiled_log _ _ _).next fun _ => mirrors_pure ?_
      dsimp only [bare]
      rw [OpenGroup.toTree_bare]
      exact withMessages_repaint _ _ _

end Draft

namespace Declaration

/-! ## Steps -/

/-- The declaration without the values of parameters. -/
def bare (declaration : Declaration) : Declaration :=
  { declaration with draft := declaration.draft.bare }

theorem mirrors_onDraft {α : Type} {action image : Draft.Step α}
    (mirrors : Mirrors (Seen Draft.bare) Eq action image) :
    Mirrors (Seen bare) Eq (onDraft action) (onDraft image) := by
  intro state other alike
  obtain ⟨declaration, host⟩ := state
  obtain ⟨declaration', host'⟩ := other
  obtain ⟨rfl, hosts⟩ := alike
  have ran := mirrors (declaration.draft, host) (declaration.draft.bare, host') ⟨rfl, hosts⟩
  change Act.Alike _ Eq (onDraft action (declaration, host)) (onDraft image (declaration.bare, host'))
  unfold onDraft
  dsimp only [bare]
  -- Only how the two runs end matters from here on, not how they came there.
  generalize action.run (declaration.draft, host) = here at ran
  generalize image.run (declaration.draft.bare, host') = there at ran
  cases ran with
  | passed seen hosts =>
      refine .passed (congrArg Except.ok seen) ⟨?_, hosts.2⟩
      rw [hosts.1]
      rfl
  | @halted halt _ _ hosts =>
      cases halt with
      | error error =>
          refine .passed rfl ⟨?_, hosts.2⟩
          rw [hosts.1]
          rfl
      | broken breakdown =>
          refine .halted ⟨?_, hosts.2⟩
          rw [hosts.1]
          rfl

theorem veiled_bindGroup (label : Option String) (ref : GroupRef) :
    Veiled bare (bindGroup label ref) := by
  cases label with
  | none => exact mirrors_pure rfl
  | some label =>
      have labelled : Veiled bare (modifyNode fun declaration : Declaration =>
          { declaration with groups := declaration.groups.insert label ref }) :=
        veiled_modifyNode fun _ => rfl
      exact labelled

theorem veiled_bindJob (label : Option String) (id : Nat) : Veiled bare (bindJob label id) := by
  cases label with
  | none => exact mirrors_pure rfl
  | some label =>
      have labelled : Veiled bare (modifyNode fun declaration : Declaration =>
          { declaration with jobs := declaration.jobs.insert label id }) :=
        veiled_modifyNode fun _ => rfl
      exact labelled

theorem veiled_beginGroup (opening : Opening) : Veiled bare (beginGroup opening) := by
  refine mirrors_node_bind fun declaration => ?_
  rw [show declaration.bare.groups = declaration.groups from rfl]
  split
  · exact mirrors_pure rfl
  · exact mirrors_pure rfl
  · refine (mirrors_onDraft (Draft.veiled_openGroup _ _ _)).next fun opened => ?_
    cases opened with
    | error error => exact mirrors_pure rfl
    | ok ref => exact (veiled_bindGroup _ _).next fun _ => mirrors_pure rfl

theorem veiled_finishGroup (ref : GroupRef) : Veiled bare (finishGroup ref) :=
  mirrors_onDraft (Draft.veiled_close ref)

mutual

/-- The step without the values of parameters. -/
def Step.bare : Step → Step
  | .begin opening => .begin opening
  | .finish group => .finish group
  | .invoke unchecked parent job params label =>
      .invoke unchecked parent job (params.map Params.blankValue) label
  | .message node text => .message node text
  | .fail text => .fail text
  | .scoped opening body => .scoped opening (bareBody body)

def bareBody : List (Bool × Step) → List (Bool × Step)
  | [] => []
  | (mayFail, step) :: rest => (mayFail, step.bare) :: bareBody rest

end

mutual

theorem mirrors_run : ∀ step : Step, Mirrors (Seen bare) Eq step.run step.bare.run
  | .begin opening => by
      rw [Step.bare, Step.run]
      refine (veiled_beginGroup opening).next fun begun => ?_
      cases begun <;> exact mirrors_pure rfl
  | .finish label => by
      rw [Step.bare, Step.run]
      refine mirrors_node_bind fun declaration => ?_
      -- The same groups are known by the same labels, whatever the secrets are.
      change Mirrors _ _ (match declaration.groups.get? label with | none => _ | some ref => _)
        (match declaration.groups.get? label with | none => _ | some ref => _)
      split
      · exact mirrors_pure rfl
      · refine (veiled_finishGroup _).next fun finished => ?_
        cases finished with
        | error error => exact mirrors_pure rfl
        | ok =>
            refine mirrors_node_bind fun declaration => ?_
            exact mirrors_pure (congrArg Answer.level (Draft.level_bare declaration.draft).symm)
  | .invoke unchecked parent job params label => by
      rw [Step.bare, Step.run, Step.run]
      refine mirrors_node_bind fun declaration => ?_
      change Mirrors _ _ (match declaration.groups.get? parent with | none => _ | some ref => _)
        (match declaration.groups.get? parent with | none => _ | some ref => _)
      split
      · exact mirrors_pure rfl
      · refine (mirrors_onDraft (Draft.mirrors_invoke _ _ _ _)).next fun invoked => ?_
        cases invoked with
        | error error => exact mirrors_pure rfl
        | ok id => exact (veiled_bindJob label id).next fun _ => mirrors_pure rfl
  | .message label text => by
      rw [Step.bare, Step.run]
      refine mirrors_node_bind fun declaration => ?_
      change Mirrors _ _ (match declaration.nodeId? label with | none => _ | some ref => _)
        (match declaration.nodeId? label with | none => _ | some ref => _)
      split
      · exact mirrors_pure rfl
      · refine (mirrors_onDraft (Draft.veiled_setMessage _ _)).next fun told => ?_
        cases told <;> exact mirrors_pure rfl
  | .fail text => by
      rw [Step.bare, Step.run]
      exact mirrors_pure rfl
  | .scoped opening body => by
      have below := mirrors_runBody body
      rw [Step.bare, Step.run, Step.run]
      refine (veiled_beginGroup opening).next fun begun => ?_
      cases begun with
      | error answer => exact mirrors_pure rfl
      | ok ref =>
          refine below.next fun ran => ?_
          obtain ⟨answers, failure⟩ := ran
          cases failure with
          | some error =>
              exact (mirrors_onDraft (Draft.veiled_drop ref)).discard.next fun _ => mirrors_pure rfl
          | none =>
              refine (veiled_finishGroup ref).next fun finished => ?_
              cases finished <;> exact mirrors_pure rfl

theorem mirrors_runBody : ∀ body : List (Bool × Step),
    Mirrors (Seen bare) Eq (runBody body) (runBody (bareBody body))
  | [] => mirrors_pure rfl
  | (mayFail, step) :: rest => by
      have here := mirrors_run step
      have behind := mirrors_runBody rest
      rw [bareBody, runBody, runBody]
      refine here.next fun answer => ?_
      dsimp only
      split
      · exact mirrors_pure rfl
      · exact behind.next fun ran => mirrors_pure rfl

end

theorem mirrors_runAll (steps : List Step) :
    Mirrors (Seen bare) Eq (runAll steps) (runAll (steps.map Step.bare)) :=
  mirrors_mapM fun step _ => mirrors_run step

end Declaration

/-! ## Blueprints -/

namespace Declared

/-- What came of a declaration, without the values of parameters. -/
def bare (declared : Declared) : Declared :=
  ⟨declared.answers, declared.draft.map Draft.bare, declared.flow.map Flow.bare⟩

end Declared

namespace Blueprint

/-- The blueprint without the values of parameters. -/
def bare (blueprint : Blueprint) : Blueprint :=
  { blueprint with steps := blueprint.steps.map Declaration.Step.bare }

theorem mirrors_start (config : RunConfig) (options : GroupOptions) (serial : Bool) :
    Mirrors Host.Alike (fun draft other => other = draft.bare) (Draft.start config options serial)
      (Draft.start config options serial) := by
  unfold Draft.start
  split
  · exact mirrors_throw _
  · split
    · exact mirrors_throw _
    · refine (mirrors_forM fun _ => Host.blind_log _ _ _).next fun _ => ?_
      exact (Host.blind_log _ _ _).next fun _ => mirrors_pure rfl

/-- What came of an action that may fail, seen on both sides. -/
inductive Ended {α β : Type} (see : α → β → Prop) : Except FlowError α → Except FlowError β → Prop
  | ok {value : α} {image : β} (seen : see value image) : Ended see (.ok value) (.ok image)
  | error (error : FlowError) : Ended see (.error error) (.error error)

theorem mirrors_caught {α β : Type} {see : α → β → Prop} {action : Act Host α} {image : Act Host β}
    (mirrors : Mirrors Host.Alike see action image) :
    Mirrors Host.Alike (Ended see) (declare.caught action) (declare.caught image) := by
  have passed : Mirrors Host.Alike (Ended see) (action >>= fun value => pure (.ok value))
      (image >>= fun value => pure (.ok value)) :=
    mirrors.bind fun _ _ seen => mirrors_pure (.ok seen)
  refine passed.catching fun halt => ?_
  cases halt with
  | error error => exact mirrors_pure (.error error)
  | broken breakdown => exact mirrors_throw _

theorem mirrors_runOn {ν α β : Type} {view : ν → ν} {see : α → β → Prop} {action : NodeAct ν α}
    {image : NodeAct ν β} (mirrors : Mirrors (Seen view) see action image) (node : ν) :
    Mirrors Host.Alike (fun ran ran' => see ran.1 ran'.1 ∧ ran'.2 = view ran.2)
      (declare.runOn node action) (declare.runOn (view node) image) := by
  intro host other alike
  have ran := mirrors (node, host) (view node, other) ⟨rfl, alike⟩
  change Act.Alike _ _ (declare.runOn node action host) (declare.runOn (view node) image other)
  unfold declare.runOn
  generalize action.run (node, host) = here at ran
  generalize image.run (view node, other) = there at ran
  cases ran with
  | passed seen hosts => exact .passed ⟨seen, hosts.1⟩ hosts.2
  | halted hosts => exact .halted hosts.2

theorem mirrors_declare (blueprint : Blueprint) (env : RunConfig.Environment) :
    Mirrors Host.Alike (fun declared other => other = declared.bare) (blueprint.declare env)
      (blueprint.bare.declare env) := by
  unfold declare
  rw [show blueprint.bare.options = blueprint.options from rfl]
  split
  · exact mirrors_pure rfl
  refine (mirrors_caught (mirrors_start blueprint.config _ blueprint.serial)).bind ?_
  intro started started' ended
  cases ended with
  | error error => exact mirrors_pure rfl
  | @ok draft _ same =>
      subst same
      -- The drafts are equal up to secrets, and so are the declarations that go on from them.
      refine (mirrors_runOn (Declaration.mirrors_runAll blueprint.steps)
        (Declaration.start draft)).bind ?_
      rintro ⟨answers, declaration⟩ ⟨answers', declaration'⟩ ⟨same, same'⟩
      dsimp only at same same'
      subst same same'
      refine (mirrors_caught (mirrors_runOn Draft.mirrors_finish declaration.draft)).bind ?_
      intro finished finished' ended
      cases ended with
      | error error => exact mirrors_pure rfl
      | @ok finished finished' same =>
          obtain ⟨root, draft⟩ := finished
          obtain ⟨root', draft'⟩ := finished'
          obtain ⟨rfl, -⟩ := same
          exact mirrors_pure rfl

end Blueprint

end BuildFlow
