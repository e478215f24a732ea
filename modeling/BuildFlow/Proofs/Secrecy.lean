import BuildFlow.Proofs.Secrecy.Declaration
import BuildFlow.Proofs.Secrecy.Flow
import Mathlib.Data.List.Forall2
/-!
Secret values are never shown. Two flows that were declared by the same calls
and differ only in the values of secret parameters show the same, from the first
step of the declaration to the end of the last run: what is logged, what the
calls answer, the graph at any time, and what the runs come to.
-/
namespace BuildFlow

open NodeAct Act

/-! ## Flows that differ only in secret values -/

/-- Parameter by parameter the invocations have the same names, and the same
values wherever the name does not match the pattern of secret parameters. -/
def Task.SameOpenly (task other : Task) : Prop :=
  List.Forall₂ (fun param param' => param.1 = param'.1 ∧
    (task.secret.occursIn param.1 = false → param.2 = param'.2)) task.params.entries
    other.params.entries

/-- The invocations of the trees differ only in secret values. -/
def Tree.SameOpenly (tree other : Tree) : Prop :=
  List.Forall₂ Task.SameOpenly tree.tasks other.tasks

theorem Task.SameOpenly.mask {task other : Task} (openly : task.SameOpenly other) :
    task.params.mask task.secret = other.params.mask task.secret := by
  apply Table.ext_entries
  unfold SameOpenly at openly
  unfold Params.mask Table.mapValues
  dsimp only
  generalize task.params.entries = entries at openly
  generalize other.params.entries = entries' at openly
  induction openly with
  | nil => rfl
  | @cons param param' rest rest' here _ ih =>
      rw [List.map_cons, List.map_cons, ih, ← here.1]
      cases secret : task.secret.occursIn param.1 with
      | true => rfl
      | false => rw [here.2 secret]

theorem Task.veil_eq {task other : Task}
    (bare : (task.repaint fun _ params => params.blank) = other.repaint fun _ params => params.blank)
    (openly : task.SameOpenly other) : task.veil = other.veil := by
  have masked := openly.mask
  obtain ⟨standing, name, params, token, missing, secret, number, resolved, build, old, sent⟩ := task
  obtain ⟨standing', name', params', token', missing', secret', number', resolved', build', old',
    sent'⟩ := other
  simp only [repaint, Task.mk.injEq] at bare
  obtain ⟨rfl, rfl, -, rfl, rfl, rfl, rfl, rfl, rfl, rfl, rfl⟩ := bare
  simp only [veil, repaint, Task.mk.injEq, true_and, and_true]
  exact masked

/-- Trees in the same places have as many invocations, so that these can be told apart by the tree
that they are in. -/
theorem Tree.veils_eq {children children' : List Tree}
    (each : ∀ child ∈ children, ∀ {other : Tree}, child.bare = other.bare →
      child.SameOpenly other → child.veil = other.veil)
    (bare : children.map Tree.bare = children'.map Tree.bare)
    (openly : List.Forall₂ Task.SameOpenly (tasksOf children) (tasksOf children')) :
    children.map veil = children'.map veil := by
  induction children generalizing children' with
  | nil =>
      rw [List.map_nil, eq_comm, List.map_eq_nil_iff] at bare
      rw [bare]
  | cons child rest ih =>
      cases children' with
      | nil => simp at bare
      | cons child' rest' =>
          rw [List.map_cons, List.map_cons, List.cons.injEq] at bare
          have many : child.tasks.length = child'.tasks.length := by
            have tasks := congrArg (fun tree : Tree => tree.tasks.length) bare.1
            simpa only [Tree.bare, tasks_repaint, List.length_map] using tasks
          rw [tasksOf, tasksOf] at openly
          have first := List.forall₂_take_append _ _ _ openly
          have others := List.forall₂_drop_append _ _ _ openly
          rw [← many, List.take_left] at first
          rw [← many, List.drop_left] at others
          rw [List.map_cons, List.map_cons, each child List.mem_cons_self bare.1 first,
            ih (fun other member => each other (List.mem_cons_of_mem _ member)) bare.2 others]

theorem Tree.veil_eq {tree other : Tree} (bare : tree.bare = other.bare)
    (openly : tree.SameOpenly other) : tree.veil = other.veil := by
  induction tree using childrenInduction generalizing other with
  | leaf leaf =>
      cases other with
      | task leaf' =>
          simp only [Tree.bare, repaint_task, task.injEq] at bare
          simp only [SameOpenly, tasks, List.forall₂_cons, List.Forall₂.nil, and_true] at openly
          rw [veil_task, veil_task, Task.veil_eq bare openly]
      | branch group children => simp [Tree.bare] at bare
  | branch group children ih =>
      cases other with
      | task leaf' => simp [Tree.bare] at bare
      | branch group' children' =>
          simp only [Tree.bare, repaint_branch, branch.injEq] at bare
          obtain ⟨rfl, bare⟩ := bare
          unfold SameOpenly tasks at openly
          rw [veil_branch, veil_branch, veils_eq (fun child member => ih child member) bare openly]

theorem Flow.veil_eq {flow other : Flow} (bare : flow.bare = other.bare)
    (openly : flow.root.SameOpenly other.root) : flow.veil = other.veil := by
  obtain ⟨root, config, settings, style, start, lastGraph⟩ := flow
  obtain ⟨root', config', settings', style', start', lastGraph'⟩ := other
  simp only [Flow.bare, Flow.mk.injEq] at bare
  obtain ⟨root, rfl, rfl, rfl, rfl, rfl⟩ := bare
  simp only [Flow.veil, Flow.mk.injEq, and_true]
  exact Tree.veil_eq root openly

/-- From flows that look alike through the veil, a veiled action answers the same
and leads to flows that look alike. -/
theorem Flow.agrees {α : Type} {action : Step α} (veiled : Veiled veil action) {flow other : Flow}
    {host host' : Host} (same : flow.veil = other.veil) (alike : host.Alike host') :
    (action.run (flow, host)).1 = (action.run (other, host')).1 ∧
      (action.run (flow, host)).2.1.veil = (action.run (other, host')).2.1.veil ∧
      (action.run (flow, host)).2.2.Alike (action.run (other, host')).2.2 := by
  have here := veiled (flow, host) (flow.veil, host) ⟨rfl, .refl host⟩
  have there := veiled (other, host') (flow.veil, host) ⟨same, alike.symm⟩
  exact ⟨here.answers.trans there.answers.symm, here.states.1.symm.trans there.states.1,
    here.states.2.trans there.states.2.symm⟩

/-! ## What is shown -/

/-- All that a rehearsal shows. -/
structure Shown where
  answers : List Declaration.Answer
  /-- The graph of the flow that was declared, or why there is none. -/
  declared : Except FlowError String
  runs : List (Except FlowError BuildResult)
  /-- The graph of the flow after the last run. -/
  graph : Option String
  graphFile : Option String
  /-- Everything on record, all that was logged included; only the parameters of
  requests are left out. -/
  record : List Event

def Performance.shown (performance : Performance) : Shown where
  answers := performance.declared.answers
  declared := performance.declared.flow.map Flow.graphText
  runs := performance.runs
  graph := performance.flow.map Flow.graphText
  graphFile := performance.host.graph.content
  record := performance.host.trace.map Event.veil

namespace Rehearsal

/-- The host before the flow is declared. -/
def host (rehearsal : Rehearsal) : Host :=
  .start rehearsal.runner rehearsal.script rehearsal.clock rehearsal.place

/-- The flow that comes of the declaration. -/
def Declares (rehearsal : Rehearsal) (flow : Flow) : Prop :=
  ∃ declared after,
    (rehearsal.blueprint.declare rehearsal.env).run rehearsal.host = (.ok declared, after) ∧
      declared.flow = .ok flow

/-- The graph in the middle of the run that follows the runs of the rehearsal,
after some rounds of its loop. -/
def glimpse (rehearsal : Rehearsal) (rounds : Nat) : Except Breakdown (Option String) :=
  rehearsal.play.map fun performance =>
    performance.flow.map fun flow =>
      ((Flow.runFor rounds).run (flow, performance.host)).2.1.graphText

/-- The rehearsal of another flow under the same conditions. -/
def withBlueprint (rehearsal : Rehearsal) (blueprint : Blueprint) : Rehearsal :=
  { rehearsal with blueprint }

/-- The runs of a rehearsal once its flow was declared. -/
def afterwards (rehearsal : Rehearsal) (declared : Declared) (host : Host) :
    Except Breakdown Performance :=
  match declared.flow with
  | .error _ => return ⟨declared, [], none, host⟩
  | .ok flow => do
      let (runs, flow, host) ← play.settle (rehearsal.runAll.run (flow, host))
      return ⟨declared, runs, some flow, host⟩

theorem play_eq (rehearsal : Rehearsal) :
    rehearsal.play = (do
      let (declared, host) ← play.settle
        ((rehearsal.blueprint.declare rehearsal.env).run rehearsal.host)
      rehearsal.afterwards declared host) := rfl

/-- Two rehearsals that differ only in secret values: either both break down for the
same reason, or what came of them looks alike. -/
inductive Parallels : Except Breakdown Performance → Except Breakdown Performance → Prop
  | broken (breakdown : Breakdown) : Parallels (.error breakdown) (.error breakdown)
  | played {performance other : Performance} (shown : performance.shown = other.shown)
      (flows : performance.flow.map Flow.veil = other.flow.map Flow.veil)
      (hosts : performance.host.Alike other.host) : Parallels (.ok performance) (.ok other)

theorem parallels_afterwards (rehearsal : Rehearsal) (other : Blueprint) {declared declared' : Declared}
    {host host' : Host} (bare : declared.bare = declared'.bare) (alike : host.Alike host')
    (openly : ∀ flow flow', declared.flow = .ok flow → declared'.flow = .ok flow' →
      flow.root.SameOpenly flow'.root) :
    Parallels (rehearsal.afterwards declared host)
      ((rehearsal.withBlueprint other).afterwards declared' host') := by
  obtain ⟨answers, draft, declared⟩ := declared
  obtain ⟨answers', draft', declared'⟩ := declared'
  simp only [Declared.bare, Declared.mk.injEq] at bare
  obtain ⟨rfl, -, flows⟩ := bare
  unfold afterwards
  cases declared with
  | error error =>
      cases declared' with
      | ok flow' => cases flows
      | error error' =>
          cases flows
          exact .played (by simp [Performance.shown, alike.graph, alike.trace]) rfl alike
  | ok flow =>
      cases declared' with
      | error error' => cases flows
      | ok flow' =>
          have flows : flow.bare = flow'.bare := Except.ok.inj flows
          -- Runs never look behind the veil, so both flows are run in the same way.
          have veiled := Flow.veil_eq flows (openly flow flow' rfl rfl)
          obtain ⟨same, roots, hosts⟩ := Flow.agrees (veiled_runAll rehearsal) veiled alike
          have graphs : flow.graphText = flow'.graphText := by
            rw [← Flow.graphText_veil, veiled, Flow.graphText_veil]
          dsimp only
          rw [show (rehearsal.withBlueprint other).runAll = rehearsal.runAll from rfl]
          generalize rehearsal.runAll.run (flow, host) = ran at same roots hosts
          generalize rehearsal.runAll.run (flow', host') = ran' at same roots hosts
          obtain ⟨answer, last, after⟩ := ran
          obtain ⟨answer', last', after'⟩ := ran'
          dsimp only at same roots hosts
          subst same
          cases answer with
          | error halt =>
              cases halt with
              | broken breakdown => exact .broken breakdown
              | error error => exact .broken _
          | ok runs =>
              have last : last.graphText = last'.graphText := by
                rw [← Flow.graphText_veil, roots, Flow.graphText_veil]
              refine .played ?_ (congrArg some roots) hosts
              simp [Performance.shown, Except.map, graphs, last, hosts.graph, hosts.trace]

theorem parallels (rehearsal : Rehearsal) (other : Blueprint)
    (calls : other.bare = rehearsal.blueprint.bare)
    (openly : ∀ flow flow', rehearsal.Declares flow →
      (rehearsal.withBlueprint other).Declares flow' → flow.root.SameOpenly flow'.root) :
    Parallels rehearsal.play (rehearsal.withBlueprint other).play := by
  have here := Blueprint.mirrors_declare rehearsal.blueprint rehearsal.env _ _ (.refl rehearsal.host)
  have there := Blueprint.mirrors_declare other rehearsal.env _ _ (.refl rehearsal.host)
  rw [calls] at there
  rw [play_eq, play_eq]
  -- Both declarations are compared with the one in which all values are left out.
  change Parallels _ (do
    let (declared, host) ← play.settle ((other.declare rehearsal.env).run rehearsal.host)
    (rehearsal.withBlueprint other).afterwards declared host)
  replace openly : ∀ flow flow',
      (∃ declared after, (rehearsal.blueprint.declare rehearsal.env).run rehearsal.host =
        (.ok declared, after) ∧ declared.flow = .ok flow) →
      (∃ declared after, (other.declare rehearsal.env).run rehearsal.host =
        (.ok declared, after) ∧ declared.flow = .ok flow') → flow.root.SameOpenly flow'.root := openly
  generalize (rehearsal.blueprint.declare rehearsal.env).run rehearsal.host = ran at here openly
  generalize (other.declare rehearsal.env).run rehearsal.host = ran' at there openly
  generalize (rehearsal.blueprint.bare.declare rehearsal.env).run rehearsal.host = image at here there
  cases here with
  | @halted halt state _ =>
      cases there with
      | halted =>
          cases halt with
          | broken breakdown => exact .broken breakdown
          | error error => exact .broken _
  | @passed declared image state _ seen alike =>
      cases there with
      | @passed declared' _ state' _ seen' alike' =>
          exact parallels_afterwards rehearsal other (seen.symm.trans seen') (alike.trans alike'.symm)
            fun flow flow' came came' =>
              openly flow flow' ⟨declared, state, rfl, came⟩ ⟨declared', state', rfl, came'⟩

/-- A flow whose only invocation is given a password, which is secret. -/
def login (password : String) : Blueprint where
  serial := true
  config := {}
  options := some { secretPattern := some "passw" }
  steps := [.invoke false "root" "deploy" (credentials password) none]
where
  credentials (password : String) : List (String × ParamValue) :=
    [("target", .text "staging"), ("password", .text password)]

def loginRehearsal (password : String) : Rehearsal where
  blueprint := login password
  env := {}
  jobs := [{ name := "deploy" }]
  hooks := []
  script := {}
  clock := ⟨0⟩
  place := .usable
  killBefore := none
  runs := 1

theorem login_declares {password : String} {flow : Flow}
    (declares : (loginRehearsal password).Declares flow) :
    ∃ leaf, flow.root.tasks = [leaf] ∧ Pattern.ofString? "passw" = some leaf.secret ∧
      leaf.params = Params.ofValues (login.credentials password) := by
  obtain ⟨declared, after, ran, came⟩ := declares
  obtain ⟨secret, read⟩ := Option.isSome_iff_exists.mp
    (show (Pattern.ofString? "passw").isSome by decide +kernel)
  unfold Blueprint.declare Draft.start at ran
  dsimp only [loginRehearsal, login] at ran
  rw [show Pattern.ofString? (({ secretPattern := some "passw" } : GroupOptions).secretPattern.getD
    ({} : RunConfig).secretPattern) = some secret from read] at ran
  cases fault : ({} : RunConfig).fault? with
  | some fault =>
      rw [fault] at ran
      cases ran
      cases came
  | none =>
      rw [fault] at ran
      cases ran
      cases came
      exact ⟨_, rfl, read, rfl⟩

end Rehearsal

end BuildFlow
